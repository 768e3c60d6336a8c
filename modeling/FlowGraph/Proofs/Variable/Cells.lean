import FlowGraph.Proofs.Variable.Binding

/-! # The cells of bound variables

    Each variable keeps a value of its own, bound or not (`Variables.own`).  What it shows is
    the own value of its root, and a write goes there and nowhere else; bindings come and go
    without touching any own value, so a variable that is unbound shows again what it showed
    before it was bound (`Variables.cells_of_bound`).

    The reason is that a bound variable is no root: as long as it is bound, no write reaches
    its own value (`own_run`). -/

namespace FlowGraph

namespace Variables

/-! ## Section 1: Own values -/

/-- The value that a variable keeps, whether it is bound or not. -/
def own (vs : Variables) (v : VarId) : Value := ((vs.find? v).map (·.stored)).getD .null

section Own

variable (vs : Variables)

theorem get_eq_own (v : VarId) : vs.get v = vs.own (vs.root v) := rfl

/-- Changes that spare the stored values. -/
theorem own_modify (v u : VarId) (f : Variable → Variable) (hf : ∀ x, (f x).stored = x.stored) :
    (vs.modify v f).own u = vs.own u := by
  unfold own
  rw [find?_modify]
  by_cases h : v = u
  · rw [if_pos h]
    cases vs.find? u with
    | none => rfl
    | some x => simp [hf]
  · rw [if_neg h]

theorem own_unbind (v u : VarId) : (vs.unbind v).own u = vs.own u :=
  vs.own_modify v u _ fun _ => rfl

theorem own_bind {v target : VarId} {vs' : Variables} (h : vs.bind v target = .ok vs')
    (u : VarId) : vs'.own u = vs.own u := by
  obtain ⟨_, rfl⟩ := vs.bind_eq_ok h
  exact vs.own_modify v u _ fun _ => rfl

theorem own_set (v u : VarId) (a : Value) (hroot : vs.root v < vs.cells.size) :
    (vs.set v a).own u = if u = vs.root v then a else vs.own u := by
  unfold own set
  rw [find?_modify]
  by_cases h : vs.root v = u
  · subst h
    have hx : vs.find? (vs.root v) = some vs.cells[vs.root v] := Array.getElem?_eq_getElem hroot
    simp [hx]
  · rw [if_neg h, if_neg (Ne.symm h)]

theorem own_add (x : Variable) (u : VarId) :
    (vs.add x).2.own u = if u = vs.cells.size then x.stored else vs.own u := by
  unfold own
  rw [find?_add_eq_ite]
  by_cases h : u = vs.cells.size <;> simp [h]

end Own

/-! ## Section 2: Roots -/

/-- The walks are the same where the bindings are. -/
theorem chase_congr {vs vs' : Variables} (htargets : ∀ u, vs'.targetOf u = vs.targetOf u) (n : Nat)
    (v : VarId) : vs'.chase n v = vs.chase n v := by
  induction n generalizing v with
  | zero => rfl
  | succ n ih => simp [chase, htargets, ih]

theorem root_congr {vs vs' : Variables} (hvs : vs.WellBound) (hvs' : vs'.WellBound)
    (htargets : ∀ u, vs'.targetOf u = vs.targetOf u) (v : VarId) : vs'.root v = vs.root v := by
  have hwalk : vs'.root v = vs.chase vs'.cells.size v := chase_congr htargets _ v
  rw [hwalk]
  apply chase_eq_root hvs
  rw [← hwalk, ← htargets]
  exact targetOf_root hvs' v

section Roots

variable {vs : Variables} (hvs : vs.WellBound)

include hvs

theorem root_set (v u : VarId) (a : Value) : (vs.set v a).root u = vs.root u :=
  root_congr hvs (hvs.set v a) (fun w => vs.targetOf_set v w a) u

/-- A write shows at all variables of the same root, and at no others. -/
theorem get_set (v u : VarId) (a : Value) (hv : v < vs.cells.size) :
    (vs.set v a).get u = if vs.root u = vs.root v then a else vs.get u := by
  rw [get_eq_own, root_set hvs, own_set _ _ _ _ (root_lt hvs v hv), get_eq_own]

theorem get_unbind_self (v : VarId) : (vs.unbind v).get v = vs.own v := by
  have hunbound : (vs.unbind v).targetOf v = none := by simp [targetOf_unbind]
  rw [get_eq_own, root_of_unbound (hvs.unbind v) v hunbound, own_unbind]

theorem root_add (x : Variable) (hx : x.target = none) (u : VarId) :
    (vs.add x).2.root u = vs.root u :=
  root_congr hvs (hvs.add x hx) (fun w => vs.targetOf_add x hx w) u

/-- A variable that is not there is not met by walks from others. -/
theorem root_ne_size (u : VarId) (hu : u ≠ vs.cells.size) : vs.root u ≠ vs.cells.size := by
  by_cases hlt : u < vs.cells.size
  · exact (root_lt hvs u hlt).ne
  · have hunbound : vs.targetOf u = none := by
      have hgone : vs.find? u = none := Array.getElem?_eq_none (Nat.le_of_not_lt hlt)
      simp [targetOf, hgone]
    rw [root_of_unbound hvs u hunbound]
    exact hu

/-- A copy has a cell of its own, with the value that the variable shows. -/
theorem copy_spec (v : VarId) (hv : v < vs.cells.size) :
    let c := (vs.copy v).1
    let vs' := (vs.copy v).2
    c = vs.cells.size ∧ vs'.cells.size = vs.cells.size + 1 ∧ vs'.get c = vs.get v ∧
      vs'.root c = c ∧ (∀ u, u ≠ c → vs'.root u ≠ c) ∧ ∀ u, u ≠ c → vs'.get u = vs.get u := by
  obtain ⟨x, _, hcopy⟩ := vs.copy_eq hv
  rw [hcopy]
  intro c vs'
  have hc : c = vs.cells.size := rfl
  have hroot : ∀ u, vs'.root u = vs.root u := root_add hvs _ rfl
  have hown : ∀ u, vs'.own u = if u = c then vs.get v else vs.own u := vs.own_add _
  have hself : vs.root c = c := by
    have hgone : vs.find? c = none := Array.getElem?_eq_none le_rfl
    apply root_of_unbound hvs
    simp [targetOf, hgone]
  have hothers : ∀ u, u ≠ c → vs.root u ≠ c := root_ne_size hvs
  refine ⟨hc, by simp [vs', add], ?_, ?_, ?_, ?_⟩
  · rw [get_eq_own, hroot, hself, hown, if_pos rfl]
  · rw [hroot, hself]
  · intro u hu
    rw [hroot]
    exact hothers u hu
  · intro u hu
    rw [get_eq_own, hroot, hown, if_neg (hothers u hu), get_eq_own]

end Roots

/-! ## Section 3: Runs -/

/-- An operation leaves the own value of a variable that is there, unless it writes the
    variable as a root. -/
theorem own_apply {vs : Variables} (hvs : vs.WellBound) (op : Operation) (v : VarId)
    (hv : v < vs.cells.size) (hop : ∀ u a, op = .set u a → vs.root u ≠ v) :
    (vs.apply op).own v = vs.own v := by
  unfold apply
  by_cases hthere : ∀ u ∈ op.operands, u < vs.cells.size
  · rw [if_pos hthere]
    cases op with
    | bind w target =>
      cases h : vs.bind w target with
      | ok vs' =>
        rw [perform_of_bind h]
        exact vs.own_bind h v
      | error e => rw [perform_of_refused h]
    | unbind w => exact vs.own_unbind w v
    | set u a =>
      have hu : u < vs.cells.size := hthere u (by simp [Operation.operands])
      show (vs.set u a).own v = vs.own v
      rw [vs.own_set u v a (root_lt hvs u hu), if_neg (hop u a rfl).symm]
    | copy u =>
      have hu : u < vs.cells.size := hthere u (by simp [Operation.operands])
      obtain ⟨x, _, hcopy⟩ := vs.copy_eq hu
      show (vs.copy u).2.own v = vs.own v
      rw [hcopy, own_add, if_neg hv.ne]
  · rw [if_neg hthere]

/-- A bound variable stays bound until it is unbound itself. -/
theorem bound_apply {vs : Variables} (op : Operation) (v : VarId) (hop : op ≠ .unbind v)
    (hbound : vs.targetOf v ≠ none) : (vs.apply op).targetOf v ≠ none := by
  unfold apply
  by_cases hthere : ∀ u ∈ op.operands, u < vs.cells.size
  · rw [if_pos hthere]
    cases op with
    | bind w target =>
      cases h : vs.bind w target with
      | ok vs' =>
        have hw : w < vs.cells.size := hthere w (by simp [Operation.operands])
        rw [perform_of_bind h, vs.targetOf_bind hw h]
        by_cases heq : w = v
        · simp [heq]
        · rw [if_neg heq]
          exact hbound
      | error e =>
        rw [perform_of_refused h]
        exact hbound
    | unbind w =>
      have hne : w ≠ v := fun heq => hop (by rw [heq])
      show (vs.unbind w).targetOf v ≠ none
      rw [targetOf_unbind, if_neg hne]
      exact hbound
    | set u a =>
      show (vs.set u a).targetOf v ≠ none
      rw [targetOf_set]
      exact hbound
    | copy u =>
      have hu : u < vs.cells.size := hthere u (by simp [Operation.operands])
      obtain ⟨x, _, hcopy⟩ := vs.copy_eq hu
      show (vs.copy u).2.targetOf v ≠ none
      rw [hcopy, vs.targetOf_add _ rfl]
      exact hbound
  · rw [if_neg hthere]
    exact hbound

/-- As long as a variable is bound, whatever is done leaves its own value. -/
theorem own_run {vs : Variables} (hvs : vs.WellBound) (ops : List Operation) (v : VarId)
    (hbound : vs.targetOf v ≠ none) (hops : .unbind v ∉ ops) : (vs.run ops).own v = vs.own v := by
  induction ops generalizing vs with
  | nil => rfl
  | cons op rest ih =>
    have hop : op ≠ .unbind v := fun heq => hops (by simp [heq])
    have hrest : Operation.unbind v ∉ rest := fun hmem => hops (List.mem_cons_of_mem op hmem)
    -- roots are not bound
    have hroot : ∀ u, vs.root u ≠ v := by
      intro u heq
      apply hbound
      rw [← heq]
      exact targetOf_root hvs u
    obtain ⟨t, ht⟩ := Option.ne_none_iff_exists'.mp hbound
    have hv : v < vs.cells.size := Forwards.lt ht
    show ((vs.apply op).run rest).own v = vs.own v
    rw [ih (hvs.apply op) (bound_apply op v hop hbound) hrest]
    exact own_apply hvs op v hv fun u _ _ => hroot u

/-- **Main theorem: the cells of bound variables.**  Whatever is done with unbound variables, a
    variable then shows the own value of the unbound variable at the end of its chain.  A write
    changes that one's value and no other, so it shows at the variables with this root and only
    there.  Bindings and their removal change no own value, and a variable that is unbound
    after whatever was done while it was bound shows what it showed before.  A copy shows the
    same value and shares its cell with no variable. -/
theorem cells_of_bound (xs : List Variable) (hxs : ∀ x ∈ xs, x.target = none)
    (ops : List Operation) :
    let vs := (Variables.mk xs.toArray).run ops
    (∀ v, Relation.ReflTransGen vs.Forwards v (vs.root v) ∧ vs.targetOf (vs.root v) = none ∧
      vs.get v = vs.own (vs.root v)) ∧
    (∀ v < vs.cells.size, ∀ a u,
      (vs.set v a).root u = vs.root u ∧
      (vs.set v a).own u = (if u = vs.root v then a else vs.own u) ∧
      (vs.set v a).get u = (if vs.root u = vs.root v then a else vs.get u)) ∧
    (∀ v u, (vs.unbind v).own u = vs.own u) ∧
    (∀ v < vs.cells.size, ∀ target vs', vs.bind v target = .ok vs' →
      (∀ u, vs'.own u = vs.own u) ∧
      (target < vs.cells.size → vs.targetOf v = none → ∀ more, .unbind v ∉ more →
        ((vs'.run more).unbind v).get v = vs.get v)) ∧
    ∀ v < vs.cells.size,
      let c := (vs.copy v).1
      let vs' := (vs.copy v).2
      c = vs.cells.size ∧ vs'.cells.size = vs.cells.size + 1 ∧ vs'.get c = vs.get v ∧
        vs'.root c = c ∧ (∀ u, u ≠ c → vs'.root u ≠ c) ∧ ∀ u, u ≠ c → vs'.get u = vs.get u := by
  intro vs
  have hvs : vs.WellBound := (wellBound_of_unbound xs hxs).run ops
  refine ⟨?_, ?_, vs.own_unbind, ?_, fun v hv => copy_spec hvs v hv⟩
  · intro v
    exact ⟨vs.reflTransGen_chase _ v, targetOf_root hvs v, vs.get_eq_own v⟩
  · intro v hv a u
    exact ⟨root_set hvs v u a, vs.own_set v u a (root_lt hvs v hv), get_set hvs v u a hv⟩
  · intro v hv target vs' h
    refine ⟨vs.own_bind h, fun htarget hunbound more hmore => ?_⟩
    have hvs' : vs'.WellBound := hvs.bind htarget h
    have hbound : vs'.targetOf v ≠ none := by
      rw [vs.targetOf_bind hv h]
      simp
    calc ((vs'.run more).unbind v).get v
      _ = (vs'.run more).own v := get_unbind_self (hvs'.run more) v
      _ = vs'.own v := own_run hvs' more v hbound hmore
      _ = vs.own v := vs.own_bind h v
      _ = vs.get v := by rw [get_eq_own, root_of_unbound hvs v hunbound]

/-- A variable is bound into a chain, written, bound elsewhere and written again; unbound it
    shows its first value.  A write at one end of a chain shows at the other end. -/
theorem cells_of_bound_rewritten :
    let vs := (Variables.mk fourVariables.toArray).run [.bind 1 2]
    (∀ x ∈ fourVariables, x.target = none) ∧ vs.cells.size = 4 ∧
      (vs.set 1 (.int 9)).get 2 = .int 9 ∧
      ∃ vs', vs.bind 0 1 = .ok vs' ∧
        ((vs'.run [.set 0 (.int 7), .bind 0 3, .set 0 (.int 8)]).unbind 0).get 0 = .int 0 := by
  intro vs
  have hfree : ∀ x ∈ fourVariables, x.target = none := by decide
  have hsize : vs.cells.size = 4 := by decide +kernel
  have hroots : vs.root 2 = vs.root 1 := by decide +kernel
  have hreaches : ¬ vs.reaches 0 vs.cells.size 1 = true := by
    show ¬ ((Variables.mk fourVariables.toArray).run [.bind 1 2]).reaches 0 _ 1 = true
    decide +kernel
  obtain ⟨_, hset, _, hbind, _⟩ := cells_of_bound fourVariables hfree [.bind 1 2]
  refine ⟨hfree, hsize, ?_, ?_⟩
  · rw [(hset 1 (by rw [hsize]; decide) (.int 9) 2).2.2, if_pos hroots]
  · obtain ⟨vs', hvs'⟩ : ∃ vs', vs.bind 0 1 = .ok vs' := ⟨_, if_neg hreaches⟩
    have hthere : ∀ v < 4, v < vs.cells.size := by
      rw [hsize]
      exact fun v hv => hv
    obtain ⟨_, hunbound⟩ := hbind 0 (hthere 0 (by decide)) 1 vs' hvs'
    refine ⟨vs', hvs', ?_⟩
    rw [hunbound (hthere 1 (by decide)) (by decide +kernel) _ (by simp)]
    decide +kernel

end Variables
end FlowGraph
