import FlowGraph.Proofs.Variable.Wiring

/-! # Binding variables again and again

    A plan lists variables, each with its source, and carrying it out binds them anew in this
    order (`Variables.carryOut`).  A variable is settled if it is bound to its source, or if it
    is unbound and has none or one that leads back to it; binding a settled variable anew
    changes nothing (`Variables.rebound_of_settled`).

    What a plan leaves depends on the bindings that were there before.  If variables have no
    binding other than to their sources, then a plan only adds bindings, and all are settled
    afterwards (`Variables.settled_carryOut`).  So from the second time on nothing changes
    (`Variables.carryOut_thrice`).  If no bind is refused on account of a variable that comes
    later in the plan, it is the same as if all of them had been unbound
    (`Variables.carryOut_of_unhindered`), and then the second time nothing changes, unless a bind
    is refused in that way then (`Variables.carryOut_twice`). -/

namespace FlowGraph

open Relation

namespace Variables

variable {vs ws us : Variables}

/-! ## Section 1: Tables without bindings -/

/-- The table with all bindings undone. -/
def cut (vs : Variables) : Variables := ⟨vs.cells.map fun x => { x with target := none }⟩

theorem find?_cut (vs : Variables) (v : VarId) :
    vs.cut.find? v = (vs.find? v).map fun x => { x with target := none } := by
  unfold cut find?
  rw [Array.getElem?_map]

/-- Tables that differ in nothing but bindings have the same own values. -/
theorem own_of_cut (h : ws.cut = vs.cut) (v : VarId) : ws.own v = vs.own v := by
  have hown : ∀ us : Variables, us.own v = us.cut.own v := by
    intro us
    unfold own
    rw [find?_cut, Option.map_map]
    rfl
  rw [hown ws, h, ← hown vs]

theorem size_of_cut (h : ws.cut = vs.cut) : ws.cells.size = vs.cells.size := by
  have hsize : ∀ us : Variables, us.cut.cells.size = us.cells.size := fun us => Array.size_map
  rw [← hsize ws, h, hsize vs]

/-- Bindings are all that a table has besides. -/
theorem eq_of_cut (h : ws.cut = vs.cut) (htarget : ∀ v, ws.targetOf v = vs.targetOf v) :
    ws = vs := by
  have hcell : ∀ v, ws.find? v = vs.find? v := by
    intro v
    have hcut : ws.cut.find? v = vs.cut.find? v := by rw [h]
    have hbound := htarget v
    rw [find?_cut, find?_cut] at hcut
    unfold targetOf at hbound
    generalize ws.find? v = y, vs.find? v = x at hcut hbound
    cases x with
    | none => exact Option.map_eq_none_iff.mp hcut
    | some x =>
      obtain ⟨y, rfl, hy⟩ := Option.map_eq_some_iff.mp hcut
      obtain ⟨_, _, _, _, _, _, _⟩ := x
      obtain ⟨_, _, _, _, _, _, _⟩ := y
      simp_all
  cases ws
  cases vs
  exact congrArg Variables.mk (Array.ext_getElem? hcell)

theorem cut_modify (v : VarId) (f : Variable → Option VarId) :
    (vs.modify v fun x => { x with target := f x }).cut = vs.cut := by
  have hcell : ∀ u, (vs.modify v fun x => { x with target := f x }).cut.find? u
      = vs.cut.find? u := by
    intro u
    rw [find?_cut, find?_cut, find?_modify]
    split
    · rw [Option.map_map]
      rfl
    · rfl
  exact congrArg Variables.mk (Array.ext_getElem? hcell)

theorem cut_unbind (v : VarId) : (vs.unbind v).cut = vs.cut := cut_modify v fun _ => none

theorem cut_bound (v t : VarId) : (vs.bound v t).cut = vs.cut := by
  unfold bound
  cases hbind : vs.bind v t with
  | error e => rfl
  | ok ws =>
    obtain ⟨_, rfl⟩ := vs.bind_eq_ok hbind
    exact cut_modify v fun _ => some t

theorem cut_rebound (v : VarId) (source : Option VarId) : (vs.rebound v source).cut = vs.cut := by
  cases source with
  | none => exact cut_unbind v
  | some t => exact (cut_bound v t).trans (cut_unbind v)

theorem cut_unbindAll (ids : List VarId) : (vs.unbindAll ids).cut = vs.cut := by
  induction ids generalizing vs with
  | nil => rfl
  | cons v rest ih => exact ih.trans (cut_unbind v)

theorem targetOf_unbindAll (ids : List VarId) (u : VarId) :
    (vs.unbindAll ids).targetOf u = if u ∈ ids then none else vs.targetOf u := by
  induction ids generalizing vs with
  | nil => simp [unbindAll]
  | cons v rest ih =>
    show ((vs.unbind v).unbindAll rest).targetOf u = _
    rw [ih, targetOf_unbind]
    by_cases hu : u ∈ rest
    · simp [hu]
    · simp [hu, eq_comm]

theorem WellBound.unbindAll (hvs : vs.WellBound) (ids : List VarId) :
    (vs.unbindAll ids).WellBound := by
  induction ids generalizing vs with
  | nil => exact hvs
  | cons v rest ih => exact ih (hvs.unbind v)

/-! ## Section 2: Settled variables -/

/-- The variable is bound to its source, or the bind is refused. -/
def SettledFor (vs : Variables) (v : VarId) : Option VarId → Prop
  | none => vs.targetOf v = none
  | some t => vs.targetOf v = some t ∨ vs.targetOf v = none ∧ ReflTransGen vs.Forwards t v

theorem rewired_target_of_ne {v u : VarId} (hws : vs.Rewired {v} ws) (hcut : ws.cut = vs.cut)
    (hu : u ≠ v) : ws.targetOf u = vs.targetOf u := by
  by_cases hlt : u < vs.cells.size
  · exact hws.target u hlt hu
  · have hgone : ∀ xs : Variables, xs.cells.size ≤ u → xs.targetOf u = none := by
      intro xs hxs
      simp [targetOf, find?, hxs]
    rw [hgone ws ((size_of_cut hcut).trans_le (Nat.le_of_not_lt hlt)),
      hgone vs (Nat.le_of_not_lt hlt)]

/-- Other bindings stay. -/
theorem targetOf_rebound_of_ne {v u : VarId} (source : Option VarId) (hu : u ≠ v) :
    (vs.rebound v source).targetOf u = vs.targetOf u :=
  rewired_target_of_ne (rewired_rebound v source) (cut_rebound v source) hu

/-- A variable is bound to its source, unless the source leads to it over other bindings. -/
theorem rebound_cases (hvs : vs.WellBound) {v : VarId} (hv : v < vs.cells.size) (t : VarId) :
    ((vs.rebound v (some t)).targetOf v = some t ∧
      ¬ ReflTransGen (vs.unbind v).Forwards t v) ∨
    (vs.rebound v (some t) = vs.unbind v ∧ ReflTransGen (vs.unbind v).Forwards t v) := by
  have hchain : (∃ e, (vs.unbind v).bind v t = .error e) ↔
      ReflTransGen (vs.unbind v).Forwards t v := by
    rw [bind_error_iff (hvs.unbind v), reflTransGen_iff_eq_or_transGen, eq_comm]
  unfold rebound bound
  dsimp only
  cases hbind : (vs.unbind v).bind v t with
  | error e => exact .inr ⟨rfl, hchain.mp ⟨e, hbind⟩⟩
  | ok ws =>
    left
    constructor
    · show ws.targetOf v = some t
      rw [targetOf_bind _ (hv.trans_eq (size_unbind v).symm) hbind, if_pos rfl]
    · intro h
      obtain ⟨e, he⟩ := hchain.mpr h
      rw [hbind] at he
      cases he

section Settling

variable (hvs : vs.WellBound) {v : VarId}

include hvs

/-- A chain to a variable does not need its own binding. -/
theorem reflTransGen_unbind {t : VarId} (h : ReflTransGen vs.Forwards t v) :
    ReflTransGen (vs.unbind v).Forwards t v := by
  induction h using ReflTransGen.head_induction_on with
  | refl => exact .refl
  | head hnext hrest ih =>
    rename_i a b
    refine .head ?_ ih
    show (vs.unbind v).targetOf a = some b
    rw [targetOf_unbind, if_neg]
    · exact hnext
    · rintro rfl
      exact hvs.acyclic v (TransGen.head' hnext hrest)

variable (hv : v < vs.cells.size)

include hv

/-- Then the variable is settled. -/
theorem settled_rebound (source : Option VarId) : (vs.rebound v source).SettledFor v source := by
  cases source with
  | none => exact targetOf_unbind_self v
  | some t =>
    rcases rebound_cases hvs hv t with ⟨htarget, _⟩ | ⟨heq, hchain⟩
    · exact .inl htarget
    · rw [heq]
      exact .inr ⟨targetOf_unbind_self v, hchain⟩

/-- **Binding a settled variable anew changes nothing.** -/
theorem rebound_of_settled {source : Option VarId} (h : vs.SettledFor v source) :
    vs.rebound v source = vs := by
  refine eq_of_cut (cut_rebound v source) fun u => ?_
  by_cases hu : u = v
  · subst hu
    cases source with
    | none => exact (targetOf_unbind_self u).trans h.symm
    | some t =>
      rcases rebound_cases hvs hv t with ⟨htarget, hopen⟩ | ⟨heq, hchain⟩
      · rcases h with h | ⟨_, h⟩
        · rw [htarget, h]
        · exact absurd (reflTransGen_unbind hvs h) hopen
      · rw [heq, targetOf_unbind_self]
        rcases h with h | ⟨h, _⟩
        · -- then the binding would close a chain
          have hback : ReflTransGen vs.Forwards t u :=
            ReflTransGen.mono (fun a b => forwards_unbind u a b) _ _ hchain
          have hbound : vs.Forwards u t := h
          exact absurd (TransGen.head' hbound hback) (hvs.acyclic u)
        · exact h.symm
  · exact targetOf_rebound_of_ne source hu

end Settling

/-! ## Section 3: Plans -/

end Variables

/-- Variables in the order in which they are bound, each with its source. -/
abbrev Plan := List (VarId × Option VarId)

/-- The variables of a plan. -/
def Plan.ids (plan : Plan) : List VarId := plan.map (·.1)

/-- A variable that is listed more than once has one source. -/
def Plan.Single (plan : Plan) : Prop := ∀ e ∈ plan, ∀ e' ∈ plan, e.1 = e'.1 → e.2 = e'.2

/-- All variables and sources are there. -/
def Plan.Fits (plan : Plan) (vs : Variables) : Prop :=
  ∀ e ∈ plan, e.1 < vs.cells.size ∧ ∀ t, e.2 = some t → t < vs.cells.size

namespace Variables

variable {vs ws us : Variables}

/-- Bind variables to their sources instead of what they were bound to. -/
def carryOut (vs : Variables) (plan : Plan) : Variables :=
  plan.foldl (fun ws e => ws.rebound e.1 e.2) vs

theorem carryOut_append (plan plan' : Plan) :
    vs.carryOut (plan ++ plan') = (vs.carryOut plan).carryOut plan' := List.foldl_append

theorem rewire_eq_carryOut (source : VarId → Option VarId) (ids : List VarId) :
    vs.rewire source ids = vs.carryOut (ids.map fun v => (v, source v)) := by
  unfold rewire carryOut
  rw [List.foldl_map]

theorem cut_carryOut (plan : Plan) : (vs.carryOut plan).cut = vs.cut := by
  induction plan generalizing vs with
  | nil => rfl
  | cons e rest ih => exact ih.trans (cut_rebound e.1 e.2)

theorem targetOf_carryOut_of_notMem (plan : Plan) {u : VarId} (hu : u ∉ plan.ids) :
    (vs.carryOut plan).targetOf u = vs.targetOf u := by
  induction plan generalizing vs with
  | nil => rfl
  | cons e rest ih =>
    obtain ⟨hne, hrest⟩ := not_or.mp (mt List.mem_cons.mpr hu)
    exact (ih hrest).trans (targetOf_rebound_of_ne e.2 hne)

theorem Fits.of_cut {plan : Plan} (h : plan.Fits vs) (hcut : ws.cut = vs.cut) : plan.Fits ws := by
  unfold Plan.Fits
  rw [size_of_cut hcut]
  exact h

section Carrying

variable {plan : Plan}

theorem WellBound.carryOut (hvs : vs.WellBound) (hplan : plan.Fits vs) :
    (vs.carryOut plan).WellBound := by
  induction plan generalizing vs with
  | nil => exact hvs
  | cons e rest ih =>
    obtain ⟨hfirst, hrest⟩ := List.forall_mem_cons.mp hplan
    exact ih (hvs.rebound e.1 hfirst.2) (Fits.of_cut hrest (cut_rebound e.1 e.2))

/-- Settled variables stay as they are. -/
theorem carryOut_of_settled (hvs : vs.WellBound) (hplan : plan.Fits vs)
    (h : ∀ e ∈ plan, vs.SettledFor e.1 e.2) : vs.carryOut plan = vs := by
  induction plan with
  | nil => rfl
  | cons e rest ih =>
    obtain ⟨hfirst, hrest⟩ := List.forall_mem_cons.mp hplan
    obtain ⟨hsettled, hothers⟩ := List.forall_mem_cons.mp h
    show (vs.rebound e.1 e.2).carryOut rest = vs
    rw [rebound_of_settled hvs hfirst.1 hsettled]
    exact ih hrest hothers

/-! ## Section 4: From bindings to sources only -/

/-- Each variable is unbound, or bound to its source. -/
def Current (vs : Variables) (plan : Plan) : Prop :=
  ∀ e ∈ plan, vs.targetOf e.1 = none ∨ vs.targetOf e.1 = e.2

/-- Then binding a variable anew removes no binding. -/
theorem forwards_rebound (hvs : vs.WellBound) {e : VarId × Option VarId}
    (he : e.1 < vs.cells.size) (h : vs.targetOf e.1 = none ∨ vs.targetOf e.1 = e.2) (a b : VarId)
    (hab : vs.Forwards a b) : (vs.rebound e.1 e.2).Forwards a b := by
  obtain ⟨v, source⟩ := e
  by_cases ha : a = v
  · subst ha
    have hbound : vs.targetOf a = some b := hab
    have hsource : source = some b := by
      rcases h with h | h
      · rw [hbound] at h
        cases h
      · exact h.symm.trans hbound
    subst hsource
    have hsettled : vs.SettledFor a (some b) := Or.inl hbound
    rw [rebound_of_settled hvs he hsettled]
    exact hab
  · exact (targetOf_rebound_of_ne source ha).trans hab

/-- A variable that was bound anew is bound to its source if at all. -/
theorem targetOf_rebound_self (hvs : vs.WellBound) {v : VarId} (hv : v < vs.cells.size)
    (source : Option VarId) :
    (vs.rebound v source).targetOf v = none ∨ (vs.rebound v source).targetOf v = source := by
  have hsettled := settled_rebound hvs hv source
  cases source with
  | none => exact .inl hsettled
  | some t => exact hsettled.symm.imp And.left id

/-- A settled variable stays so when there are more bindings. -/
theorem SettledFor.grow {v : VarId} {source : Option VarId} (h : vs.SettledFor v source)
    (hgrow : ∀ a b, vs.Forwards a b → ws.Forwards a b)
    (hv : ws.targetOf v = none ∨ ws.targetOf v = source) : ws.SettledFor v source := by
  cases source with
  | none => exact hv.elim id id
  | some t =>
    rcases hv with hv | hv
    · rcases h with h | ⟨_, h⟩
      · exact .inl (hgrow v t h)
      · exact .inr ⟨hv, ReflTransGen.mono hgrow _ _ h⟩
    · exact .inl hv

/-- The variables of a plan stay current when one of them is bound anew. -/
theorem Current.rebound {whole : Plan} (hvs : vs.WellBound) (h : vs.Current whole)
    (hsingle : whole.Single) {e : VarId × Option VarId} (he : e ∈ whole)
    (hlt : e.1 < vs.cells.size) : (vs.rebound e.1 e.2).Current whole := by
  intro e' he'
  by_cases hsame : e'.1 = e.1
  · rw [hsame, hsingle e' he' e he hsame]
    exact targetOf_rebound_self hvs hlt e.2
  · rw [targetOf_rebound_of_ne e.2 hsame]
    exact h e' he'

/-- **From such a table a plan only adds bindings, and settles its variables.**  The plan is part of
    a larger one, whose variables stay current. -/
theorem carryOut_grows {whole : Plan} (hvs : vs.WellBound) (hplan : plan.Fits vs)
    (hsub : plan ⊆ whole) (hsingle : whole.Single) (h : vs.Current whole) :
    (∀ a b, vs.Forwards a b → (vs.carryOut plan).Forwards a b) ∧
      (vs.carryOut plan).Current whole ∧
      ∀ e ∈ plan, (vs.carryOut plan).SettledFor e.1 e.2 := by
  induction plan generalizing vs with
  | nil => exact ⟨fun _ _ hab => hab, h, List.forall_mem_nil _⟩
  | cons e rest ih =>
    obtain ⟨hfirst, hrest⟩ := List.forall_mem_cons.mp hplan
    obtain ⟨hmem, hsubset⟩ := List.cons_subset.mp hsub
    have hnext := h.rebound hvs hsingle hmem hfirst.1
    obtain ⟨hgrow, hcurrent, hsettled⟩ := ih (hvs.rebound e.1 hfirst.2)
      (Fits.of_cut hrest (cut_rebound e.1 e.2)) hsubset hnext
    refine ⟨fun a b hab => hgrow a b (forwards_rebound hvs hfirst.1 (h e hmem) a b hab), hcurrent,
      List.forall_mem_cons.mpr ⟨?_, hsettled⟩⟩
    exact (settled_rebound hvs hfirst.1 e.2).grow hgrow (hcurrent e hmem)

theorem settled_carryOut (hvs : vs.WellBound) (hplan : plan.Fits vs) (hsingle : plan.Single)
    (h : vs.Current plan) : ∀ e ∈ plan, (vs.carryOut plan).SettledFor e.1 e.2 :=
  (carryOut_grows hvs hplan (List.Subset.refl plan) hsingle h).2.2

/-- Whatever was bound before, afterwards variables are bound to their sources if at all. -/
theorem current_carryOut (hvs : vs.WellBound) (hplan : plan.Fits vs) (hsingle : plan.Single) :
    (vs.carryOut plan).Current plan := by
  induction plan generalizing vs with
  | nil => exact List.forall_mem_nil _
  | cons e rest ih =>
    obtain ⟨hfirst, hrest⟩ := List.forall_mem_cons.mp hplan
    have hlater := ih (hvs.rebound e.1 hfirst.2) (Fits.of_cut hrest (cut_rebound e.1 e.2))
      fun a ha b hb => hsingle a (List.mem_cons_of_mem e ha) b (List.mem_cons_of_mem e hb)
    refine List.forall_mem_cons.mpr ⟨?_, hlater⟩
    by_cases hin : e.1 ∈ Plan.ids rest
    · -- it is bound anew later on, to the same source
      obtain ⟨e', he', heq⟩ := List.mem_map.mp hin
      have hsame := hlater e' he'
      rwa [heq, hsingle e' (List.mem_cons_of_mem e he') e List.mem_cons_self heq] at hsame
    · show ((vs.rebound e.1 e.2).carryOut rest).targetOf e.1 = none ∨
        ((vs.rebound e.1 e.2).carryOut rest).targetOf e.1 = e.2
      rw [targetOf_carryOut_of_notMem rest hin]
      exact targetOf_rebound_self hvs hfirst.1 e.2

/-- Carrying out a plan twice settles its variables. -/
theorem carryOut_of_current (hvs : vs.WellBound) (hplan : plan.Fits vs) (hsingle : plan.Single)
    (h : vs.Current plan) : (vs.carryOut plan).carryOut plan = vs.carryOut plan :=
  carryOut_of_settled (hvs.carryOut hplan) (Fits.of_cut hplan (cut_carryOut plan))
    (settled_carryOut hvs hplan hsingle h)

/-- **From the second time on nothing changes.** -/
theorem carryOut_thrice (hvs : vs.WellBound) (hplan : plan.Fits vs) (hsingle : plan.Single) :
    ((vs.carryOut plan).carryOut plan).carryOut plan = (vs.carryOut plan).carryOut plan :=
  carryOut_of_current (hvs.carryOut hplan) (Fits.of_cut hplan (cut_carryOut plan)) hsingle
    (current_carryOut hvs hplan hsingle)

/-! ## Section 5: From any bindings -/

/-- When the turn of a variable comes, no chain from its source passes a variable whose turn is
    still to come on the way to it. -/
inductive Unhindered : Variables → Plan → Prop where
  | nil (vs : Variables) : Unhindered vs []
  | cons {vs : Variables} {v : VarId} {source : Option VarId} {rest : Plan}
    (hclear : ∀ t, source = some t → vs.Clear {u | u ∈ Plan.ids rest} {v} t)
    (hrest : Unhindered (vs.rebound v source) rest) : Unhindered vs ((v, source) :: rest)

/-- The second table lacks bindings of variables that are still to be bound. -/
def Ahead (vs ws : Variables) (rest : Plan) : Prop :=
  ∀ u, ws.targetOf u = vs.targetOf u ∨ u ∈ rest.ids ∧ ws.targetOf u = none

/-- What the second table lacks does not matter for a bind that is not hindered. -/
theorem Ahead.rebound {v : VarId} {source : Option VarId} {rest : Plan} (hvs : vs.WellBound)
    (hws : ws.WellBound) (hcut : ws.cut = vs.cut) (hv : v < vs.cells.size)
    (h : vs.Ahead ws ((v, source) :: rest))
    (hclear : ∀ t, source = some t → vs.Clear {u | u ∈ Plan.ids rest} {v} t) :
    (vs.rebound v source).Ahead (ws.rebound v source) rest := by
  intro u
  by_cases hu : u = v
  swap
  · rw [targetOf_rebound_of_ne source hu, targetOf_rebound_of_ne source hu]
    rcases h u with heq | ⟨hin, hnone⟩
    · exact .inl heq
    · exact .inr ⟨(List.mem_cons.mp hin).resolve_left hu, hnone⟩
  subst hu
  left
  cases source with
  | none => exact (targetOf_unbind_self u).trans (targetOf_unbind_self u).symm
  | some t =>
    have hfewer : ∀ a b, (ws.unbind u).Forwards a b → (vs.unbind u).Forwards a b := by
      intro a b hab
      have hold : (ws.unbind u).targetOf a = some b := hab
      show (vs.unbind u).targetOf a = some b
      rw [targetOf_unbind] at hold ⊢
      split at hold
      · cases hold
      · rename_i hne
        rw [if_neg hne]
        rcases h a with heq | ⟨_, hnone⟩
        · exact heq.symm.trans hold
        · rw [hnone] at hold
          cases hold
    -- a chain that is in the way has no binding that the second table lacks
    have hchain : ReflTransGen (vs.unbind u).Forwards t u →
        ReflTransGen (ws.unbind u).Forwards t u := by
      intro hold
      have hfirm := ((hclear t rfl).mono (fun a b => forwards_unbind u a b)
        (List.Subset.refl _)).firm rfl hold
      refine ReflTransGen.mono (fun a b hab => ?_) _ _ hfirm
      have hbound : (vs.unbind u).targetOf a = some b := hab.2
      show (ws.unbind u).targetOf a = some b
      rw [targetOf_unbind] at hbound ⊢
      split at hbound
      · cases hbound
      · rename_i hne
        rw [if_neg hne]
        rcases h a with heq | ⟨hin, _⟩
        · exact heq.trans hbound
        · rcases List.mem_cons.mp hin with rfl | hin
          · exact absurd rfl hne
          · exact absurd hin hab.1
    rcases rebound_cases hvs hv t with ⟨hbound, hopen⟩ | ⟨heq, hold⟩
    · rcases rebound_cases hws (hv.trans_eq (size_of_cut hcut).symm) t with
        ⟨hbound', _⟩ | ⟨_, hold⟩
      · rw [hbound, hbound']
      · exact absurd (ReflTransGen.mono hfewer _ _ hold) hopen
    · rcases rebound_cases hws (hv.trans_eq (size_of_cut hcut).symm) t with
        ⟨_, hopen⟩ | ⟨heq', _⟩
      · exact absurd (hchain hold) hopen
      · rw [heq, heq', targetOf_unbind_self, targetOf_unbind_self]

theorem Ahead.carryOut (hvs : vs.WellBound) (hws : ws.WellBound) (hcut : ws.cut = vs.cut)
    (hplan : plan.Fits vs) (h : vs.Ahead ws plan) (hun : vs.Unhindered plan) :
    ws.carryOut plan = vs.carryOut plan := by
  induction hun generalizing ws with
  | nil vs =>
    refine eq_of_cut hcut fun u => (h u).resolve_right ?_
    rintro ⟨hin, _⟩
    cases hin
  | @cons vs v source rest hclear _ ih =>
    obtain ⟨hfirst, hrest⟩ := List.forall_mem_cons.mp hplan
    have hcut' : (ws.rebound v source).cut = (vs.rebound v source).cut := by
      rw [cut_rebound, cut_rebound, hcut]
    have hlt : ∀ t, source = some t → t < ws.cells.size := by
      rw [size_of_cut hcut]
      exact hfirst.2
    exact ih (hvs.rebound v hfirst.2) (hws.rebound v hlt) hcut'
      (Fits.of_cut hrest (cut_rebound v source)) (h.rebound hvs hws hcut hfirst.1 hclear)

/-- When the variables of a plan are unbound, these are the bindings that the table lacks. -/
theorem ahead_unbindAll {ids : List VarId} (hids : ∀ v, v ∈ ids ↔ v ∈ plan.ids) :
    vs.Ahead (vs.unbindAll ids) plan := by
  intro u
  rw [targetOf_unbindAll]
  split
  · rename_i hin
    exact .inr ⟨(hids u).mp hin, rfl⟩
  · exact .inl rfl

theorem current_unbindAll (plan : Plan) : (vs.unbindAll plan.ids).Current plan := by
  intro e he
  have hin : e.1 ∈ plan.ids := List.mem_map_of_mem he
  rw [targetOf_unbindAll, if_pos hin]
  exact .inl rfl

/-- **A plan that is not hindered leaves what it would have left if its variables had been
    unbound.** -/
theorem carryOut_of_unhindered (hvs : vs.WellBound) (hplan : plan.Fits vs)
    (hun : vs.Unhindered plan) {ids : List VarId} (hids : ∀ v, v ∈ ids ↔ v ∈ plan.ids) :
    (vs.unbindAll ids).carryOut plan = vs.carryOut plan :=
  Ahead.carryOut hvs (hvs.unbindAll ids) (cut_unbindAll ids) hplan (ahead_unbindAll hids) hun

/-- If the variables are unbound in between, the same bindings come back. -/
theorem carryOut_unbindAll (hvs : vs.WellBound) (hplan : plan.Fits vs) (hun : vs.Unhindered plan)
    {ids : List VarId} (hids : ∀ v, v ∈ ids ↔ v ∈ plan.ids) :
    ((vs.carryOut plan).unbindAll ids).carryOut plan = vs.carryOut plan := by
  have hsame : (vs.carryOut plan).unbindAll ids = vs.unbindAll ids := by
    refine eq_of_cut ?_ fun u => ?_
    · rw [cut_unbindAll, cut_carryOut, cut_unbindAll]
    · rw [targetOf_unbindAll, targetOf_unbindAll]
      split
      · rfl
      · rename_i hout
        exact targetOf_carryOut_of_notMem plan (mt (hids u).mpr hout)
  rw [hsame]
  exact carryOut_of_unhindered hvs hplan hun hids

/-- **If a plan is hindered neither the first nor the second time, nothing changes the second
    time.** -/
theorem carryOut_twice (hvs : vs.WellBound) (hplan : plan.Fits vs) (hun : vs.Unhindered plan)
    (hun' : (vs.carryOut plan).Unhindered plan) :
    (vs.carryOut plan).carryOut plan = vs.carryOut plan :=
  calc (vs.carryOut plan).carryOut plan
    _ = ((vs.carryOut plan).unbindAll plan.ids).carryOut plan :=
      (carryOut_of_unhindered (hvs.carryOut hplan) (Fits.of_cut hplan (cut_carryOut plan)) hun'
        fun _ => Iff.rfl).symm
    _ = vs.carryOut plan := carryOut_unbindAll hvs hplan hun fun _ => Iff.rfl

/-- A chain of the second table that ends at a variable is the only one there. -/
theorem transGen_of_grows {v t u : VarId} (hgrow : ∀ a b, us.Forwards a b → ws.Forwards a b)
    (hacyclic : ¬ TransGen ws.Forwards v v) (h : ReflTransGen us.Forwards t v)
    (htu : ReflTransGen ws.Forwards t u) (huv : TransGen ws.Forwards u v) :
    ReflTransGen us.Forwards t u ∧ TransGen us.Forwards u v := by
  induction h using ReflTransGen.head_induction_on with
  | refl => exact absurd (TransGen.trans_right htu huv) hacyclic
  | head hnext hrest ih =>
    rename_i a b
    rcases htu.cases_head with rfl | ⟨c, hac, hcu⟩
    · exact ⟨.refl, .head' hnext hrest⟩
    · have hsame : b = c := Option.some.inj ((hgrow a b hnext).symm.trans hac)
      subst hsame
      obtain ⟨hbu, hmore⟩ := ih hcu
      exact ⟨.head hnext hbu, hmore⟩

/-- A plan that is not hindered is not hindered either by what it leaves. -/
theorem Ahead.unhindered {whole : Plan} (hvs : vs.WellBound) (hus : us.WellBound)
    (hcut : us.cut = vs.cut) (hplan : plan.Fits vs) (hsub : plan ⊆ whole) (hsingle : whole.Single)
    (h : vs.Ahead us plan) (hcurrent : us.Current whole) (hun : vs.Unhindered plan) :
    (us.carryOut plan).Unhindered plan := by
  induction hun generalizing us with
  | nil vs => exact .nil _
  | @cons vs v source rest hclear _ ih =>
    have hfits : Plan.Fits ((v, source) :: rest) us := Fits.of_cut hplan hcut
    obtain ⟨hfirst, hrest⟩ := List.forall_mem_cons.mp hplan
    obtain ⟨hfirst', hrest'⟩ := List.forall_mem_cons.mp hfits
    obtain ⟨hmem, hsubset⟩ := List.cons_subset.mp hsub
    have hcut' : (us.rebound v source).cut = (vs.rebound v source).cut := by
      rw [cut_rebound, cut_rebound, hcut]
    have hnext := hcurrent.rebound hus hsingle hmem hfirst'.1
    have hmiddle : (us.rebound v source).WellBound := hus.rebound v hfirst'.2
    -- from now on bindings are only added, and in the end all are settled
    obtain ⟨hgrow, -, -⟩ := carryOut_grows hmiddle (Fits.of_cut hrest' (cut_rebound v source))
      hsubset hsingle hnext
    obtain ⟨-, -, hsettled⟩ := carryOut_grows hus hfits hsub hsingle hcurrent
    have hlast : (us.carryOut ((v, source) :: rest)).WellBound := hus.carryOut hfits
    have hv : v < (us.carryOut ((v, source) :: rest)).cells.size := by
      rw [size_of_cut (cut_carryOut _)]
      exact hfirst'.1
    refine .cons (fun t ht u hu htu w hw huw => ?_) ?_
    · subst ht
      cases hw
      rcases rebound_cases hus hfirst'.1 t with ⟨hbound, _⟩ | ⟨heq, hchain⟩
      · -- the binding would close a chain
        have hforwards := hgrow v t hbound
        exact hlast.acyclic v (TransGen.head hforwards (TransGen.trans_right htu huw))
      · rw [← heq] at hchain
        obtain ⟨hfar, hnear⟩ := transGen_of_grows hgrow (hlast.acyclic v) hchain htu huw
        have hfewer : ∀ a b, (us.rebound v (some t)).Forwards a b → vs.Forwards a b := by
          intro a b hab
          rw [heq] at hab
          have hold : us.targetOf a = some b := forwards_unbind v a b hab
          rcases h a with hsame | ⟨_, hnone⟩
          · exact hsame.symm.trans hold
          · rw [hnone] at hold
            cases hold
        exact hclear t rfl u hu (ReflTransGen.mono hfewer _ _ hfar) v rfl
          (TransGen.mono hfewer _ _ hnear)
    · have hsame := rebound_of_settled hlast hv (hsettled _ List.mem_cons_self)
      rw [hsame]
      exact ih (hvs.rebound v hfirst.2) hmiddle hcut' (Fits.of_cut hrest (cut_rebound v source))
        hsubset (h.rebound hvs hus hcut hfirst.1 hclear) hnext

/-- **If variables are listed with one source, a plan that is not hindered the first time is not
    hindered the second time.** -/
theorem unhindered_carryOut (hvs : vs.WellBound) (hplan : plan.Fits vs) (hsingle : plan.Single)
    (hun : vs.Unhindered plan) : (vs.carryOut plan).Unhindered plan := by
  rw [← carryOut_of_unhindered hvs hplan hun fun v => Iff.rfl]
  exact Ahead.unhindered hvs (hvs.unbindAll _) (cut_unbindAll _) hplan (List.Subset.refl plan)
    hsingle (ahead_unbindAll fun v => Iff.rfl) (current_unbindAll plan) hun

/-- Unbound variables are in no one's way. -/
theorem unhindered_of_unbound (hnodup : plan.ids.Nodup)
    (h : ∀ e ∈ plan, vs.targetOf e.1 = none) : vs.Unhindered plan := by
  induction plan generalizing vs with
  | nil => exact .nil vs
  | cons e rest ih =>
    obtain ⟨v, source⟩ := e
    obtain ⟨hnot, hnodup⟩ := List.nodup_cons.mp hnodup
    obtain ⟨_, hothers⟩ := List.forall_mem_cons.mp h
    refine .cons (fun t _ u hu _ w _ huw => ?_) (ih hnodup fun e' he' => ?_)
    · obtain ⟨e', he', rfl⟩ := List.mem_map.mp hu
      obtain ⟨a, ha, _⟩ := TransGen.head'_iff.mp huw
      have hbound : vs.targetOf e'.1 = some a := ha
      rw [hothers e' he'] at hbound
      cases hbound
    · rw [targetOf_rebound_of_ne source]
      · exact hothers e' he'
      · rintro rfl
        exact hnot (List.mem_map.mpr ⟨e', he', rfl⟩)

end Carrying

/-! ## Section 6: Values from before -/

/-- The second table comes from the first by operations and new variables, and whenever something
    is written the variable is bound. -/
inductive WrittenWhileBound (v : VarId) (vs : Variables) : Variables → Prop where
  | refl : WrittenWhileBound v vs vs
  | apply {ws : Variables} (h : WrittenWhileBound v vs ws) (op : Operation)
    (hop : ∀ u a, op = .set u a → ws.targetOf v ≠ none) : WrittenWhileBound v vs (ws.apply op)
  | add {ws : Variables} (h : WrittenWhileBound v vs ws) (x : Variable) (hx : x.target = none) :
    WrittenWhileBound v vs (ws.add x).2

theorem le_size_apply (op : Operation) : vs.cells.size ≤ (vs.apply op).cells.size := by
  unfold apply
  split
  · rename_i hthere
    cases op with
    | bind v t =>
      cases hbind : vs.bind v t with
      | error e => rw [perform_of_refused hbind]
      | ok ws =>
        rw [perform_of_bind hbind]
        obtain ⟨_, rfl⟩ := vs.bind_eq_ok hbind
        exact (size_of_cut (cut_modify v fun _ => some t)).ge
    | unbind v => exact (size_unbind v).ge
    | set v a => exact (vs.rewired_set v a).size
    | copy v =>
      obtain ⟨x, _, hcopy⟩ := vs.copy_eq (hthere v (by simp [Operation.operands]))
      show vs.cells.size ≤ (vs.copy v).2.cells.size
      rw [hcopy]
      exact (vs.rewired_add _ rfl).size
  · exact le_rfl

/-- **The own value of the variable is what it was.** -/
theorem WrittenWhileBound.own {v : VarId} (h : vs.WrittenWhileBound v ws) (hvs : vs.WellBound)
    (hv : v < vs.cells.size) :
    ws.WellBound ∧ v < ws.cells.size ∧ ws.own v = vs.own v := by
  induction h with
  | refl => exact ⟨hvs, hv, rfl⟩
  | @apply us _ op hop ih =>
    obtain ⟨hus, hlt, hown⟩ := ih
    refine ⟨hus.apply op, hlt.trans_le (le_size_apply op), ?_⟩
    rw [own_apply hus op v hlt fun u a hset hroot => ?_]
    · exact hown
    · -- roots are not bound
      apply hop u a hset
      rw [← hroot]
      exact targetOf_root hus u
  | @add us _ x hx ih =>
    obtain ⟨hus, hlt, hown⟩ := ih
    refine ⟨hus.add x hx, hlt.trans_le (us.rewired_add x hx).size, ?_⟩
    rw [own_add, if_neg hlt.ne, hown]

end Variables
end FlowGraph
