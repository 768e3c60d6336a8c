import FlowGraph.Proofs.Reordering.Binding
import FlowGraph.Proofs.Variable.Cells

/-! # What variables are bound to after a compilation

    Compiling a graph binds its variables one after the other, each to a *source*: a global
    variable, or one of the blackboard.  A bind is refused if the source leads back to the
    variable, and then the two share a cell only as long as that chain stays.

    Call a variable *loose* if it will be bound anew.  Two variables are joined if one leads to
    the other over bindings of variables that are not loose (`Variables.Joined`); they share a
    cell, and what is done with loose variables does not part them.  If no chain from a source
    passes a loose variable on its way to a variable of the graph (`Variables.Clear`), then
    each variable of the graph is joined to its source in the end
    (`Variables.rewire_joined`). -/

namespace FlowGraph

open Relation

/-- What of a variable says how a compilation binds it. -/
def Variable.label (x : Variable) : String × Bool × Bool := (x.name, x.isShared, x.isGlobal)

namespace Variables

variable {vs ws us : Variables}

/-! ## Section 1: Tables of which some variables are bound anew -/

/-- Only the bindings of some variables change; there may be new variables. -/
structure Rewired (ids : Set VarId) (vs ws : Variables) : Prop where
  size : vs.cells.size ≤ ws.cells.size
  label : ∀ v < vs.cells.size, (ws.find? v).map Variable.label = (vs.find? v).map Variable.label
  target : ∀ v < vs.cells.size, v ∉ ids → ws.targetOf v = vs.targetOf v

namespace Rewired

variable {ids ids' : Set VarId}

theorem refl (vs : Variables) : vs.Rewired ids vs := ⟨le_rfl, fun _ _ => rfl, fun _ _ _ => rfl⟩

theorem trans (h : vs.Rewired ids ws) (h' : ws.Rewired ids us) : vs.Rewired ids us := by
  refine ⟨h.size.trans h'.size, fun v hv => ?_, fun v hv hout => ?_⟩
  · rw [h'.label v (hv.trans_le h.size), h.label v hv]
  · rw [h'.target v (hv.trans_le h.size) hout, h.target v hv hout]

theorem mono (h : vs.Rewired ids ws) (hsub : ids ⊆ ids') : vs.Rewired ids' ws :=
  ⟨h.size, h.label, fun v hv hout => h.target v hv fun hin => hout (hsub hin)⟩

theorem nameOf (h : vs.Rewired ids ws) {v : VarId} (hv : v < vs.cells.size) :
    ws.nameOf v = vs.nameOf v := by
  have hname : ∀ us : Variables,
      us.nameOf v = (((us.find? v).map Variable.label).map Prod.fst).getD "" := by
    intro us
    unfold Variables.nameOf Variable.label
    rw [Option.map_map]
    rfl
  rw [hname, hname, h.label v hv]

/-- A look-up by name finds the same variable. -/
theorem board (h : vs.Rewired ids ws) {board : Blackboard} (hboard : ∀ v ∈ board, v < vs.cells.size)
    (name : String) : board.find? ws name = board.find? vs name := by
  unfold Blackboard.find?
  exact List.find?_congr fun v hv => by rw [h.nameOf (hboard v hv)]

end Rewired

/-- A write binds nothing. -/
theorem rewired_set (vs : Variables) (v : VarId) (a : Value) : vs.Rewired ∅ (vs.set v a) := by
  refine ⟨(vs.size_set v a).ge, fun u _ => ?_, fun u _ _ => vs.targetOf_set v u a⟩
  unfold set
  rw [find?_modify]
  split
  · rw [Option.map_map]
    rfl
  · rfl

/-- Nor does a new variable that is unbound. -/
theorem rewired_add (vs : Variables) (x : Variable) (hx : x.target = none) : vs.Rewired ∅ (vs.add x).2 := by
  refine ⟨?_, fun v hv => ?_, fun v _ _ => vs.targetOf_add x hx v⟩
  · show vs.cells.size ≤ (vs.cells.push x).size
    rw [Array.size_push]
    exact Nat.le_succ _
  · rw [find?_add_eq_ite, if_neg hv.ne]

/-- Changing only the target of a variable. -/
theorem rewired_modify (v : VarId) (f : Variable → Option VarId) :
    vs.Rewired {v} (vs.modify v fun x => { x with target := f x }) := by
  refine ⟨(vs.size_modify v _).ge, fun u _ => ?_, fun u _ hu => ?_⟩
  · rw [find?_modify]
    split
    · rw [Option.map_map]
      rfl
    · rfl
  · unfold targetOf
    rw [find?_modify, if_neg fun heq => hu heq.symm]

theorem rewired_unbind (v : VarId) : vs.Rewired {v} (vs.unbind v) := rewired_modify v fun _ => none

theorem rewired_bound (v t : VarId) : vs.Rewired {v} (vs.bound v t) := by
  unfold bound
  cases hbind : vs.bind v t with
  | error e => exact .refl vs
  | ok ws =>
    obtain ⟨_, rfl⟩ := vs.bind_eq_ok hbind
    exact rewired_modify v fun _ => some t

/-! ## Section 2: Chains that stay -/

/-- A binding of a variable that is not loose. -/
def Firm (vs : Variables) (loose : Set VarId) (v t : VarId) : Prop := v ∉ loose ∧ vs.Forwards v t

/-- One of two variables leads to the other over bindings that stay. -/
def Joined (vs : Variables) (loose : Set VarId) (v w : VarId) : Prop :=
  ReflTransGen (vs.Firm loose) v w ∨ ReflTransGen (vs.Firm loose) w v

variable {loose loose' : Set VarId}

theorem Joined.mono {v w : VarId} (h : vs.Joined loose v w)
    (hfirm : ∀ a t, vs.Firm loose a t → ws.Firm loose' a t) : ws.Joined loose' v w :=
  h.imp (ReflTransGen.mono hfirm _ _) (ReflTransGen.mono hfirm _ _)

/-- What is done with loose variables does not part joined ones. -/
theorem Joined.rewired {v w : VarId} (h : vs.Joined loose v w) (hws : vs.Rewired loose ws)
    (hloose : ∀ u < vs.cells.size, u ∈ loose' → u ∈ loose) : ws.Joined loose' v w :=
  h.mono fun a _ hat =>
    ⟨fun hin => hat.1 (hloose a hat.2.lt hin), (hws.target a hat.2.lt hat.1).trans hat.2⟩

/-- Joined variables share a cell. -/
theorem Joined.root_eq {v w : VarId} (h : vs.Joined loose v w) (hvs : vs.WellBound) :
    vs.root v = vs.root w := by
  have hchain : ∀ a b, ReflTransGen (vs.Firm loose) a b → vs.root a = vs.root b := by
    intro a b hab
    induction hab with
    | refl => rfl
    | tail _ hlast ih => rw [ih, root_of_forwards hvs hlast.2]
  rcases h with h | h
  · exact hchain v w h
  · exact (hchain w v h).symm

/-- No chain from a variable passes a loose one on its way to one of `ours`. -/
def Clear (vs : Variables) (loose ours : Set VarId) (s : VarId) : Prop :=
  ∀ u ∈ loose, ReflTransGen vs.Forwards s u → ∀ v ∈ ours, ¬ TransGen vs.Forwards u v

namespace Clear

variable {ours : Set VarId} {s v : VarId}

/-- With fewer bindings and fewer loose variables there are fewer such chains. -/
theorem mono (h : vs.Clear loose ours s) (hsub : ∀ a t, ws.Forwards a t → vs.Forwards a t)
    (hloose : loose' ⊆ loose) : ws.Clear loose' ours s :=
  fun u hu hsu v hv huv =>
    h u (hloose hu) (ReflTransGen.mono hsub _ _ hsu) v hv (TransGen.mono hsub _ _ huv)

theorem of_unbound (hunbound : vs.targetOf v = none) (hv : v ∉ loose) : vs.Clear loose ours v := by
  intro u hu hvu
  rcases ReflTransGen.cases_head hvu with rfl | ⟨t, ht, _⟩
  · exact absurd hu hv
  · have hbound : vs.targetOf v = some t := ht
    rw [hunbound] at hbound
    cases hbound

/-- A variable of the graph that is not loose any more is bound to a clear source: a new chain that
    passes a loose variable would have led to it over the source, or to that variable before. -/
theorem bind (h : vs.Clear loose ours s) (hv : v ∈ ours) (hfirm : v ∉ loose) {t : VarId}
    (ht : vs.Clear loose ours t) (hsub : ∀ a b, ws.Forwards a b → vs.Forwards a b ∨ a = v ∧ b = t) :
    ws.Clear loose ours s := by
  intro u hu hsu w hw huw
  -- the loose variable was reached before, from `s` or from the source
  obtain ⟨r, hr, hru⟩ : ∃ r, vs.Clear loose ours r ∧ ReflTransGen vs.Forwards r u := by
    rcases reflTransGen_iff_eq_or_transGen.mp hsu with rfl | hsu
    · exact ⟨u, h, .refl⟩
    · rcases transGen_of_insert hsub hsu with hold | ⟨_, htu⟩
      · exact ⟨s, h, hold.to_reflTransGen⟩
      · exact ⟨t, ht, htu⟩
  rcases transGen_of_insert hsub huw with hold | ⟨huv, _⟩
  · exact hr u hu hru w hw hold
  · rcases reflTransGen_iff_eq_or_transGen.mp huv with rfl | huv
    · exact hfirm hu
    · exact hr u hu hru v hv huv

/-- A clear chain to a variable of the graph stays. -/
theorem firm (h : vs.Clear loose ours s) (hv : v ∈ ours) (hsv : ReflTransGen vs.Forwards s v) :
    ReflTransGen (vs.Firm loose) s v := by
  induction hsv using ReflTransGen.head_induction_on with
  | refl => exact .refl
  | head hnext hrest ih =>
    rename_i a t
    have hclear : vs.Clear loose ours t := fun u hu htu => h u hu (.head hnext htu)
    exact .head ⟨fun hin => h a hin .refl v hv (TransGen.head' hnext hrest), hnext⟩ (ih hclear)

end Clear

/-! ## Section 3: Binding a variable anew -/

/-- Bind a variable to its source instead of what it was bound to, unless that is refused. -/
def rebound (vs : Variables) (v : VarId) (source : Option VarId) : Variables :=
  match source with
  | none => vs.unbind v
  | some t => (vs.unbind v).bound v t

theorem rewired_rebound (v : VarId) (source : Option VarId) :
    vs.Rewired {v} (vs.rebound v source) := by
  cases source with
  | none => exact rewired_unbind v
  | some t => exact (rewired_unbind v).trans (rewired_bound v t)

theorem size_rebound (v : VarId) (source : Option VarId) :
    (vs.rebound v source).cells.size = vs.cells.size := by
  cases source with
  | none => exact size_unbind v
  | some t => exact (size_bound v t).trans (size_unbind v)

theorem WellBound.bound (hvs : vs.WellBound) (v : VarId) {t : VarId} (ht : t < vs.cells.size) :
    (vs.bound v t).WellBound := by
  unfold Variables.bound
  cases hbind : vs.bind v t with
  | error e => exact hvs
  | ok ws => exact hvs.bind ht hbind

theorem WellBound.rebound (hvs : vs.WellBound) (v : VarId) {source : Option VarId}
    (hsource : ∀ t, source = some t → t < vs.cells.size) : (vs.rebound v source).WellBound := by
  cases source with
  | none => exact hvs.unbind v
  | some t => exact (hvs.unbind v).bound v ((hsource t rfl).trans_eq (size_unbind v).symm)

theorem forwards_unbind (v a t : VarId) (h : (vs.unbind v).Forwards a t) : vs.Forwards a t := by
  unfold Forwards at h
  rw [targetOf_unbind] at h
  split at h
  · cases h
  · exact h

theorem targetOf_unbind_self (v : VarId) : (vs.unbind v).targetOf v = none := by
  rw [targetOf_unbind, if_pos rfl]

/-- Binding adds at most the one binding. -/
theorem forwards_bound (v t a b : VarId) (h : (vs.bound v t).Forwards a b) :
    vs.Forwards a b ∨ a = v ∧ b = t := by
  unfold bound at h
  cases hbind : vs.bind v t with
  | error e =>
    rw [hbind] at h
    exact .inl h
  | ok ws =>
    rw [hbind] at h
    have hsize : ws.cells.size = vs.cells.size := by
      obtain ⟨_, rfl⟩ := vs.bind_eq_ok hbind
      exact vs.size_modify _ _
    by_cases hav : v = a
    · subst hav
      have htarget : ws.targetOf v = some b := h
      rw [vs.targetOf_bind (hsize ▸ Forwards.lt h) hbind, if_pos rfl] at htarget
      exact .inr ⟨rfl, (Option.some.inj htarget).symm⟩
    · obtain ⟨_, rfl⟩ := vs.bind_eq_ok hbind
      have htarget : (vs.modify v fun x => { x with target := some t }).targetOf a = some b := h
      unfold targetOf at htarget
      rw [find?_modify, if_neg hav] at htarget
      exact .inl htarget

section Rebinding

variable {ours : Set VarId} (hvs : vs.WellBound)

include hvs

/-- An unbound variable is bound to a clear source, or the source leads to it over a chain that
    stays. -/
theorem bound_joined {v t : VarId} (hv : v ∈ ours) (hlt : v < vs.cells.size) (hfirm : v ∉ loose)
    (ht : vs.Clear loose ours t) : (vs.bound v t).Joined loose v t := by
  unfold bound
  cases hbind : vs.bind v t with
  | ok ws =>
    have htarget : ws.targetOf v = some t := by rw [vs.targetOf_bind hlt hbind, if_pos rfl]
    exact .inl (.single ⟨hfirm, htarget⟩)
  | error e =>
    have hchain : ReflTransGen vs.Forwards t v := by
      rw [reflTransGen_iff_eq_or_transGen, eq_comm]
      exact (bind_error_iff hvs v t).mp ⟨e, hbind⟩
    exact .inr (ht.firm hv hchain)

/-- A bind to an unbound variable is not refused. -/
theorem targetOf_bound {v t : VarId} (hlt : v < vs.cells.size) (hne : t ≠ v)
    (ht : vs.targetOf t = none) : (vs.bound v t).targetOf v = some t := by
  unfold bound
  cases hbind : vs.bind v t with
  | ok ws =>
    show ws.targetOf v = some t
    rw [vs.targetOf_bind hlt hbind, if_pos rfl]
  | error e =>
    rcases (bind_error_iff hvs v t).mp ⟨e, hbind⟩ with rfl | hchain
    · exact absurd rfl hne
    · obtain ⟨u, hu, _⟩ := TransGen.head'_iff.mp hchain
      have hbound : vs.targetOf t = some u := hu
      rw [ht] at hbound
      cases hbound

end Rebinding

/-! ## Section 4: Binding several variables anew -/

/-- Bind variables to their sources, one after the other. -/
def rewire (vs : Variables) (source : VarId → Option VarId) (ids : List VarId) : Variables :=
  ids.foldl (fun ws v => ws.rebound v (source v)) vs

theorem rewired_rewire (vs : Variables) (source : VarId → Option VarId) (ids : List VarId) :
    vs.Rewired {v | v ∈ ids} (vs.rewire source ids) := by
  induction ids generalizing vs with
  | nil => exact .refl vs
  | cons v rest ih =>
    refine ((rewired_rebound v (source v)).mono ?_).trans ((ih _).mono ?_)
    · rintro _ rfl
      exact List.mem_cons_self
    · exact fun u hu => List.mem_cons_of_mem v hu

theorem size_rewire (source : VarId → Option VarId) (ids : List VarId) :
    (vs.rewire source ids).cells.size = vs.cells.size := by
  induction ids generalizing vs with
  | nil => rfl
  | cons v rest ih => exact ih.trans (size_rebound v (source v))

theorem WellBound.rewire (hvs : vs.WellBound) {source : VarId → Option VarId} {ids : List VarId}
    (hsource : ∀ v ∈ ids, ∀ t, source v = some t → t < vs.cells.size) :
    (vs.rewire source ids).WellBound := by
  induction ids generalizing vs with
  | nil => exact hvs
  | cons v rest ih =>
    refine ih (hvs.rebound v (hsource v List.mem_cons_self)) fun u hu t ht => ?_
    rw [size_rebound]
    exact hsource u (List.mem_cons_of_mem v hu) t ht

section Rewiring

variable {ours : Set VarId} {source : VarId → Option VarId}

/-- **Each variable is joined to its source.**  The variables of the list are loose before, and
    not any more afterwards.  Sources that are clear stay clear, and so become the variables. -/
theorem rewire_joined (hvs : vs.WellBound) (ids : List VarId) (hnodup : ids.Nodup)
    (hours : ∀ v ∈ ids, v ∈ ours ∧ v ∈ loose ∧ v < vs.cells.size)
    (hsource : ∀ v ∈ ids, ∀ t, source v = some t → t < vs.cells.size ∧ vs.Clear loose ours t) :
    (∀ v ∈ ids, (vs.rewire source ids).Clear (loose \ {u | u ∈ ids}) ours v ∧
      ∀ t, source v = some t → (vs.rewire source ids).Joined (loose \ {u | u ∈ ids}) v t) ∧
    ∀ s, vs.Clear loose ours s → (vs.rewire source ids).Clear (loose \ {u | u ∈ ids}) ours s := by
  induction ids generalizing vs loose with
  | nil => exact ⟨List.forall_mem_nil _, fun s hs => hs.mono (fun _ _ h => h) Set.sdiff_subset⟩
  | cons v rest ih =>
    obtain ⟨hv, hvloose, hlt⟩ := hours v List.mem_cons_self
    obtain ⟨hnot, hnodup⟩ := List.nodup_cons.mp hnodup
    have hlater : ∀ u ∈ rest, u ∈ v :: rest := fun u => List.mem_cons_of_mem v
    have hsets : loose \ {u | u ∈ v :: rest} = (loose \ {v}) \ {u | u ∈ rest} := by
      ext u
      simp [and_assoc]
    -- once it is unbound the variable is not loose any more
    have hfirm : v ∉ loose \ {v} := fun h => h.2 rfl
    have hclear : ∀ s, vs.Clear loose ours s → (vs.unbind v).Clear (loose \ {v}) ours s :=
      fun s hs => hs.mono (fun a t => forwards_unbind v a t) Set.sdiff_subset
    have hself : (vs.unbind v).Clear (loose \ {v}) ours v :=
      .of_unbound (targetOf_unbind_self v) hfirm
    -- then it is bound to its source
    have hstep : ∀ s, (vs.unbind v).Clear (loose \ {v}) ours s →
        (vs.rebound v (source v)).Clear (loose \ {v}) ours s := by
      intro s hs
      cases hsv : source v with
      | none => exact hs
      | some t =>
        exact hs.bind hv hfirm (hclear t (hsource v List.mem_cons_self t hsv).2)
          fun a b => forwards_bound v t a b
    have hjoined : ∀ t, source v = some t → (vs.rebound v (source v)).Joined (loose \ {v}) v t := by
      intro t hsv
      rw [hsv]
      exact bound_joined (hvs.unbind v) hv (hlt.trans_eq (size_unbind v).symm) hfirm
        (hclear t (hsource v List.mem_cons_self t hsv).2)
    have hwell := hvs.rebound v fun t ht => (hsource v List.mem_cons_self t ht).1
    have hrest : ∀ u ∈ rest, u ∈ ours ∧ u ∈ loose \ {v} ∧
        u < (vs.rebound v (source v)).cells.size := by
      intro u hu
      obtain ⟨huours, huloose, hult⟩ := hours u (hlater u hu)
      exact ⟨huours, ⟨huloose, fun heq => hnot (Set.mem_singleton_iff.mp heq ▸ hu)⟩,
        hult.trans_eq (size_rebound v _).symm⟩
    obtain ⟨hothers, hall⟩ := ih hwell hnodup hrest fun u hu t ht =>
      ⟨(hsource u (hlater u hu) t ht).1.trans_eq (size_rebound v _).symm,
        hstep t (hclear t (hsource u (hlater u hu) t ht).2)⟩
    rw [hsets]
    refine ⟨?_, fun s hs => hall s (hstep s (hclear s hs))⟩
    intro u hu
    rcases List.mem_cons.mp hu with rfl | hu
    · refine ⟨hall u (hstep u hself), fun t ht => ?_⟩
      -- the others are bound anew, but they are loose
      refine (hjoined t ht).rewired ((rewired_rewire _ source rest).mono fun w hw => ?_) ?_
      · exact ⟨(hours w (hlater w hw)).2.1, fun heq => hnot (Set.mem_singleton_iff.mp heq ▸ hw)⟩
      · exact fun w _ hw => hw.1
    · exact hothers u hu

/-- Without a source a variable is unbound in the end. -/
theorem targetOf_rewire_none (ids : List VarId) (hnodup : ids.Nodup) (v : VarId) (hv : v ∈ ids)
    (hlt : v < vs.cells.size) (hsource : source v = none) :
    (vs.rewire source ids).targetOf v = none := by
  induction ids generalizing vs with
  | nil => cases hv
  | cons u rest ih =>
    obtain ⟨hnot, hnodup⟩ := List.nodup_cons.mp hnodup
    rcases List.mem_cons.mp hv with rfl | hv
    · have hlater := rewired_rewire (vs.rebound v (source v)) source rest
      show ((vs.rebound v (source v)).rewire source rest).targetOf v = none
      rw [hlater.target v (hlt.trans_eq (size_rebound v _).symm) hnot, hsource]
      exact targetOf_unbind_self v
    · exact ih hnodup hv (hlt.trans_eq (size_rebound u _).symm)

/-- A source that is unbound and stays so is what a variable is bound to in the end. -/
theorem targetOf_rewire_some (hvs : vs.WellBound) (ids : List VarId) (hnodup : ids.Nodup)
    (hsources : ∀ v ∈ ids, ∀ t, source v = some t → t < vs.cells.size) (v : VarId) (hv : v ∈ ids)
    (hlt : v < vs.cells.size) (t : VarId) (hsource : source v = some t) (hout : t ∉ ids)
    (hunbound : vs.targetOf t = none) : (vs.rewire source ids).targetOf v = some t := by
  induction ids generalizing vs with
  | nil => cases hv
  | cons u rest ih =>
    obtain ⟨hnot, hnodup⟩ := List.nodup_cons.mp hnodup
    obtain ⟨hne, hout⟩ := not_or.mp (mt List.mem_cons.mpr hout)
    have htlt := hsources v hv t hsource
    rcases List.mem_cons.mp hv with rfl | hv
    · have hlater := rewired_rewire (vs.rebound v (source v)) source rest
      show ((vs.rebound v (source v)).rewire source rest).targetOf v = some t
      rw [hlater.target v (hlt.trans_eq (size_rebound v _).symm) hnot, hsource]
      refine targetOf_bound (hvs.unbind v) (hlt.trans_eq (size_unbind v).symm) hne ?_
      rw [targetOf_unbind, if_neg (Ne.symm hne)]
      exact hunbound
    · refine ih (hvs.rebound u (hsources u List.mem_cons_self)) hnodup (fun w hw x hx => ?_) hv
        (hlt.trans_eq (size_rebound u _).symm) hout ?_
      · rw [size_rebound]
        exact hsources w (List.mem_cons_of_mem u hw) x hx
      · rw [(rewired_rebound u (source u)).target t htlt hne]
        exact hunbound

end Rewiring
end Variables
end FlowGraph
