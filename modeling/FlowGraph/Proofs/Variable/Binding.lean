import FlowGraph.Variable.Table
import Mathlib

/-! # Bindings are acyclic

    A bound variable forwards to its target (`Variables.Forwards`).  Starting from unbound
    variables, no sequence of operations makes a chain of bindings come back to where it
    started, so every chain ends (`Variables.bindings_acyclic`).

    A variable is read, written and looked for by walking along its chain without any other
    bound.  The rules `Reads`, `Writes` and `Walks` say this; `get`, `set` and `reaches` count
    the steps instead, and in a table without cycles the count never cuts them short: a chain
    that has as many bindings as there are variables would meet one of them twice
    (`targetOf_root`). -/

namespace FlowGraph

namespace Variables

/-! ## Section 1: Forwarding -/

/-- The first variable is bound to the second one. -/
def Forwards (vs : Variables) (v t : VarId) : Prop := vs.targetOf v = some t

/-- What a variable is bound to is there, and no chain of bindings is closed. -/
structure WellBound (vs : Variables) : Prop where
  target_lt : ∀ v t, vs.Forwards v t → t < vs.cells.size
  acyclic : ∀ v, ¬ Relation.TransGen vs.Forwards v v

/-- A bound variable is there. -/
theorem Forwards.lt {vs : Variables} {v t : VarId} (h : vs.Forwards v t) : v < vs.cells.size := by
  unfold Forwards targetOf find? at h
  obtain ⟨x, hx, _⟩ := Option.bind_eq_some_iff.mp h
  exact (Array.getElem?_eq_some_iff.mp hx).1

/-- Fewer bindings close no chain. -/
theorem WellBound.mono {vs vs' : Variables} (h : vs.WellBound)
    (hsize : vs.cells.size ≤ vs'.cells.size)
    (hsub : ∀ v t, vs'.Forwards v t → vs.Forwards v t) : vs'.WellBound := by
  constructor
  · intro v t hvt
    exact lt_of_lt_of_le (h.target_lt v t (hsub v t hvt)) hsize
  · intro v hcycle
    apply h.acyclic v
    exact Relation.TransGen.mono hsub _ _ hcycle

/-! ## Section 2: Chains -/

section Chains

variable (vs : Variables)

theorem chase_of_unbound (n : Nat) (v : VarId) (h : vs.targetOf v = none) : vs.chase n v = v := by
  cases n with
  | zero => rfl
  | succ n => simp [chase, h]

theorem chase_succ (n : Nat) {v t : VarId} (h : vs.Forwards v t) :
    vs.chase (n + 1) v = vs.chase n t := by
  unfold Forwards at h
  simp [chase, h]

/-- Walking on from where one has come. -/
theorem chase_add (m n : Nat) (v : VarId) : vs.chase (m + n) v = vs.chase n (vs.chase m v) := by
  induction m generalizing v with
  | zero => simp [chase]
  | succ m ih =>
    cases htarget : vs.targetOf v with
    | none => simp [chase_of_unbound, htarget]
    | some t =>
      have hnext : vs.Forwards v t := htarget
      rw [Nat.add_right_comm, chase_succ vs _ hnext, chase_succ vs _ hnext]
      exact ih t

/-- The walk stays on the chain. -/
theorem reflTransGen_chase (n : Nat) (v : VarId) :
    Relation.ReflTransGen vs.Forwards v (vs.chase n v) := by
  induction n generalizing v with
  | zero => exact .refl
  | succ n ih =>
    cases htarget : vs.targetOf v with
    | none =>
      rw [chase_of_unbound vs _ v htarget]
    | some t =>
      have hnext : vs.Forwards v t := htarget
      rw [chase_succ vs n hnext]
      exact .head hnext (ih t)

/-- All of the chain is walked. -/
theorem exists_chase {v u : VarId} (h : Relation.ReflTransGen vs.Forwards v u) :
    ∃ n, vs.chase n v = u := by
  induction h using Relation.ReflTransGen.head_induction_on with
  | refl => exact ⟨0, rfl⟩
  | head hnext _ ih =>
    obtain ⟨n, hn⟩ := ih
    refine ⟨n + 1, ?_⟩
    rw [chase_succ vs n hnext]
    exact hn

/-- Behind the end of a chain there is nothing. -/
theorem chase_add_of_unbound (m n : Nat) (v : VarId) (h : vs.targetOf (vs.chase m v) = none) :
    vs.chase (m + n) v = vs.chase m v := by
  rw [chase_add]
  exact vs.chase_of_unbound n _ h

/-- A bound variable on the walk is not met again. -/
theorem transGen_chase {i j : Nat} (hij : i < j) (v : VarId)
    (h : vs.targetOf (vs.chase i v) ≠ none) :
    Relation.TransGen vs.Forwards (vs.chase i v) (vs.chase j v) := by
  obtain ⟨t, ht⟩ := Option.ne_none_iff_exists'.mp h
  have hnext : vs.Forwards (vs.chase i v) t := ht
  have hsplit : j = i + ((j - i - 1) + 1) := by omega
  rw [hsplit, chase_add, chase_succ vs _ hnext]
  exact Relation.TransGen.head' hnext (vs.reflTransGen_chase _ t)

variable {vs} (hvs : vs.WellBound)

include hvs

/-- The walk to the root ends there. -/
theorem targetOf_root (v : VarId) : vs.targetOf (vs.root v) = none := by
  by_contra hbound
  let n := vs.cells.size
  -- then every variable met on the way is bound, and so there
  have hmet : ∀ i ≤ n, vs.targetOf (vs.chase i v) ≠ none := by
    intro i hi hend
    apply hbound
    have hsplit : n = i + (n - i) := by omega
    show vs.targetOf (vs.chase n v) = none
    rw [hsplit, vs.chase_add_of_unbound i (n - i) v hend]
    exact hend
  have hlt : ∀ i : Fin (n + 1), vs.chase i v < n := by
    intro i
    obtain ⟨t, ht⟩ := Option.ne_none_iff_exists'.mp (hmet i (by omega))
    exact Forwards.lt ht
  -- but these are more than there are
  let met : Fin (n + 1) → Fin n := fun i => ⟨vs.chase i v, hlt i⟩
  obtain ⟨i, j, hne, hsame⟩ := Fintype.exists_ne_map_eq_of_card_lt met (by simp)
  have hagain : vs.chase i v = vs.chase j v := congrArg Fin.val hsame
  have hcycle : ∀ a b : Fin (n + 1), a < b → vs.chase a v = vs.chase b v → False := by
    intro a b hab heq
    have hchain := vs.transGen_chase hab v (hmet a (by omega))
    rw [← heq] at hchain
    exact hvs.acyclic _ hchain
  rcases lt_or_gt_of_ne hne with hij | hji
  · exact hcycle i j hij hagain
  · exact hcycle j i hji hagain.symm

/-- A walk that ends ends at the root. -/
theorem chase_eq_root (n : Nat) (v : VarId) (h : vs.targetOf (vs.chase n v) = none) :
    vs.chase n v = vs.root v := by
  have hroot : vs.targetOf (vs.chase vs.cells.size v) = none := targetOf_root hvs v
  show vs.chase n v = vs.chase vs.cells.size v
  rw [← vs.chase_add_of_unbound n vs.cells.size v h, Nat.add_comm,
    vs.chase_add_of_unbound vs.cells.size n v hroot]

theorem root_of_unbound (v : VarId) (h : vs.targetOf v = none) : vs.root v = v :=
  (chase_eq_root hvs 0 v h).symm

theorem root_of_forwards {v t : VarId} (h : vs.Forwards v t) : vs.root v = vs.root t := by
  have hwalk : vs.chase (vs.cells.size + 1) v = vs.root t := vs.chase_succ _ h
  rw [← hwalk]
  refine (chase_eq_root hvs _ v ?_).symm
  rw [hwalk]
  exact targetOf_root hvs t

/-- The root of a variable that is there is there. -/
theorem root_lt (v : VarId) (hv : v < vs.cells.size) : vs.root v < vs.cells.size := by
  rcases Relation.ReflTransGen.cases_tail (vs.reflTransGen_chase vs.cells.size v) with heq | hlast
  · show vs.chase vs.cells.size v < vs.cells.size
    rw [heq]
    exact hv
  · obtain ⟨u, _, hu⟩ := hlast
    exact hvs.target_lt u _ hu

/-- Whatever is done along a chain is done after finitely many steps. -/
theorem wellFounded_forwards : WellFounded fun t v => vs.Forwards v t := by
  have hacc : ∀ n v, vs.targetOf (vs.chase n v) = none → Acc (fun t v => vs.Forwards v t) v := by
    intro n
    induction n with
    | zero =>
      intro v hend
      refine ⟨v, fun t ht => ?_⟩
      have hbound : vs.targetOf v = some t := ht
      have hunbound : vs.targetOf v = none := hend
      simp [hunbound] at hbound
    | succ n ih =>
      intro v hend
      refine ⟨v, fun t ht => ?_⟩
      apply ih t
      rw [← vs.chase_succ n ht]
      exact hend
  exact ⟨fun v => hacc vs.cells.size v (targetOf_root hvs v)⟩

end Chains

/-! ## Section 3: Looking for a variable -/

theorem reaches_iff_chase (vs : Variables) (goal : VarId) (n : Nat) (start : VarId) :
    vs.reaches goal n start = true ↔ ∃ i ≤ n, vs.chase i start = goal := by
  induction n generalizing start with
  | zero =>
    simp [reaches, chase]
  | succ n ih =>
    cases htarget : vs.targetOf start with
    | none =>
      have hstays : ∀ i, vs.chase i start = start := fun i => vs.chase_of_unbound i start htarget
      simp only [reaches, htarget, hstays]
      simp
      exact fun _ => ⟨0, Nat.zero_le _⟩
    | some t =>
      have hnext : vs.Forwards start t := htarget
      simp only [reaches, htarget, Bool.or_eq_true, decide_eq_true_eq, ih]
      constructor
      · rintro (hhere | ⟨i, hi, hlater⟩)
        · exact ⟨0, Nat.zero_le _, hhere⟩
        · refine ⟨i + 1, by omega, ?_⟩
          rw [vs.chase_succ i hnext]
          exact hlater
      · rintro ⟨i, hi, hmet⟩
        cases i with
        | zero => exact .inl hmet
        | succ i =>
          rw [vs.chase_succ i hnext] at hmet
          exact .inr ⟨i, by omega, hmet⟩

/-- The search finds what is on the chain, the start included. -/
theorem reaches_iff {vs : Variables} (hvs : vs.WellBound) (goal start : VarId) :
    vs.reaches goal vs.cells.size start = true ↔
      Relation.ReflTransGen vs.Forwards start goal := by
  rw [reaches_iff_chase]
  constructor
  · rintro ⟨i, _, rfl⟩
    exact vs.reflTransGen_chase i start
  · intro hchain
    obtain ⟨i, hi⟩ := vs.exists_chase hchain
    by_cases hle : i ≤ vs.cells.size
    · exact ⟨i, hle, hi⟩
    · -- the chain has ended by then
      refine ⟨vs.cells.size, le_rfl, ?_⟩
      have hsplit : i = vs.cells.size + (i - vs.cells.size) := by omega
      rw [hsplit, vs.chase_add_of_unbound _ _ start (targetOf_root hvs start)] at hi
      exact hi

/-- Binding is refused if the target is the variable or leads to it. -/
theorem bind_error_iff {vs : Variables} (hvs : vs.WellBound) (v target : VarId) :
    (∃ e, vs.bind v target = .error e) ↔
      target = v ∨ Relation.TransGen vs.Forwards target v := by
  have hreaches := reaches_iff hvs v target
  rw [Relation.reflTransGen_iff_eq_or_transGen] at hreaches
  rw [eq_comm (a := target), ← hreaches]
  unfold bind
  by_cases h : vs.reaches v vs.cells.size target = true
  · simp [h]
  · simp [h]

/-! ## Section 4: Walking without a bound -/

/-- Read a variable: an unbound one has its own value, a bound one that of its target. -/
inductive Reads (vs : Variables) : VarId → Value → Prop where
  | own (v : VarId) (x : Variable) (hx : vs.find? v = some x) (hown : x.target = none) :
      Reads vs v x.stored
  | target (v t : VarId) (a : Value) (ht : vs.Forwards v t) (h : Reads vs t a) : Reads vs v a

/-- Write a variable: an unbound one takes the value, a bound one passes it to its target. -/
inductive Writes (vs : Variables) (a : Value) : VarId → Variables → Prop where
  | own (v : VarId) (hown : vs.targetOf v = none) :
      Writes vs a v (vs.modify v fun x => { x with stored := a })
  | target (v t : VarId) (vs' : Variables) (ht : vs.Forwards v t) (h : Writes vs a t vs') :
      Writes vs a v vs'

/-- Look for a variable along a chain, and whether it is found. -/
inductive Walks (vs : Variables) (goal : VarId) : VarId → Bool → Prop where
  | found : Walks vs goal goal true
  | ended (v : VarId) (hne : v ≠ goal) (hend : vs.targetOf v = none) : Walks vs goal v false
  | on (v t : VarId) (b : Bool) (hne : v ≠ goal) (ht : vs.Forwards v t) (h : Walks vs goal t b) :
      Walks vs goal v b

section Walking

variable {vs : Variables} (hvs : vs.WellBound)

include hvs

/-- Reading ends, with the value that `get` gives. -/
theorem reads_iff (v : VarId) (hv : v < vs.cells.size) (a : Value) :
    vs.Reads v a ↔ a = vs.get v := by
  constructor
  · intro h
    induction h with
    | own v x hx hown =>
      have hunbound : vs.targetOf v = none := by simp [targetOf, hx, hown]
      unfold get
      rw [root_of_unbound hvs v hunbound, hx]
      rfl
    | target v t a ht _ ih =>
      rw [ih (hvs.target_lt v t ht)]
      unfold get
      rw [root_of_forwards hvs ht]
  · rintro rfl
    -- along the chain, from its end
    induction v using (wellFounded_forwards hvs).induction with
    | h v ih =>
      cases htarget : vs.targetOf v with
      | some t =>
        have ht : vs.Forwards v t := htarget
        have hget : vs.get v = vs.get t := by
          unfold get
          rw [root_of_forwards hvs ht]
        rw [hget]
        exact .target v t _ ht (ih t ht (hvs.target_lt v t ht))
      | none =>
        have hx : vs.find? v = some vs.cells[v] := Array.getElem?_eq_getElem hv
        have hown : vs.cells[v].target = none := by simpa [targetOf, hx] using htarget
        have hget : vs.get v = vs.cells[v].stored := by
          unfold get
          rw [root_of_unbound hvs v htarget, hx]
          rfl
        rw [hget]
        exact .own v _ hx hown

/-- Writing ends, with the variables that `set` gives. -/
theorem writes_iff (v : VarId) (a : Value) (vs' : Variables) :
    vs.Writes a v vs' ↔ vs' = vs.set v a := by
  constructor
  · intro h
    induction h with
    | own v hown =>
      unfold set
      rw [root_of_unbound hvs v hown]
    | target v t vs' ht _ ih =>
      rw [ih]
      unfold set
      rw [root_of_forwards hvs ht]
  · rintro rfl
    induction v using (wellFounded_forwards hvs).induction with
    | h v ih =>
      cases htarget : vs.targetOf v with
      | some t =>
        have ht : vs.Forwards v t := htarget
        have hset : vs.set v a = vs.set t a := by
          unfold set
          rw [root_of_forwards hvs ht]
        rw [hset]
        exact .target v t _ ht (ih t ht)
      | none =>
        have hset : vs.set v a = vs.modify v fun x => { x with stored := a } := by
          unfold set
          rw [root_of_unbound hvs v htarget]
        rw [hset]
        exact .own v htarget

/-- The search ends, with the answer that `reaches` gives. -/
theorem walks_iff (goal start : VarId) (b : Bool) :
    vs.Walks goal start b ↔ b = vs.reaches goal vs.cells.size start := by
  have hstep : ∀ v t, v ≠ goal → vs.Forwards v t →
      vs.reaches goal vs.cells.size v = vs.reaches goal vs.cells.size t := by
    intro v t hne ht
    rw [Bool.eq_iff_iff, reaches_iff hvs, reaches_iff hvs]
    constructor
    · intro hchain
      rcases Relation.ReflTransGen.cases_head hchain with heq | ⟨u, hu, hrest⟩
      · exact absurd heq hne
      · have hsame : some t = some u := ht.symm.trans hu
        rw [Option.some.injEq] at hsame
        rw [hsame]
        exact hrest
    · exact fun hrest => .head ht hrest
  have hend : ∀ v, v ≠ goal → vs.targetOf v = none →
      vs.reaches goal vs.cells.size v = false := by
    intro v hne hunbound
    rw [Bool.eq_false_iff, ne_eq, reaches_iff hvs]
    intro hchain
    rcases Relation.ReflTransGen.cases_head hchain with heq | ⟨u, hu, _⟩
    · exact hne heq
    · have hbound : vs.targetOf v = some u := hu
      simp [hunbound] at hbound
  have hfound : vs.reaches goal vs.cells.size goal = true := (reaches_iff hvs goal goal).mpr .refl
  constructor
  · intro h
    induction h with
    | found => exact hfound.symm
    | ended v hne hunbound => exact (hend v hne hunbound).symm
    | on v t b hne ht _ ih => rw [hstep v t hne ht, ih]
  · rintro rfl
    induction start using (wellFounded_forwards hvs).induction with
    | h v ih =>
      by_cases heq : v = goal
      · subst heq
        rw [hfound]
        exact .found
      · cases htarget : vs.targetOf v with
        | none =>
          rw [hend v heq htarget]
          exact .ended v heq htarget
        | some t =>
          rw [hstep v t heq htarget]
          exact .on v t _ heq htarget (ih t htarget)

end Walking

/-! ## Section 5: Operations -/

section Changes

variable (vs : Variables)

theorem find?_modify (v u : VarId) (f : Variable → Variable) :
    (vs.modify v f).find? u = if v = u then (vs.find? u).map f else vs.find? u := by
  unfold modify find?
  rw [Array.getElem?_modify]

theorem size_modify (v : VarId) (f : Variable → Variable) :
    (vs.modify v f).cells.size = vs.cells.size := by
  simp [modify]

theorem size_set (v : VarId) (a : Value) : (vs.set v a).cells.size = vs.cells.size :=
  vs.size_modify _ _

theorem find?_add_eq_ite (x : Variable) (u : VarId) :
    (vs.add x).2.find? u = if u = vs.cells.size then some x else vs.find? u := by
  unfold add find?
  rw [Array.getElem?_push]

/-- Values are no bindings. -/
theorem targetOf_set (v u : VarId) (a : Value) : (vs.set v a).targetOf u = vs.targetOf u := by
  unfold targetOf set
  rw [find?_modify]
  by_cases h : vs.root v = u
  · rw [if_pos h]
    cases vs.find? u <;> rfl
  · rw [if_neg h]

theorem targetOf_unbind (v u : VarId) :
    (vs.unbind v).targetOf u = if v = u then none else vs.targetOf u := by
  unfold targetOf unbind
  rw [find?_modify]
  by_cases h : v = u
  · simp only [h, if_true]
    cases vs.find? u <;> rfl
  · simp only [h, if_false]

/-- A new variable that is unbound adds no binding. -/
theorem targetOf_add (x : Variable) (hx : x.target = none) (u : VarId) :
    (vs.add x).2.targetOf u = vs.targetOf u := by
  unfold targetOf
  rw [find?_add_eq_ite]
  by_cases h : u = vs.cells.size
  · have hnew : vs.find? u = none := by simp [find?, h]
    rw [if_pos h, hnew]
    simp [hx]
  · rw [if_neg h]

/-- A binding that is not refused. -/
theorem bind_eq_ok {v target : VarId} {vs' : Variables} (h : vs.bind v target = .ok vs') :
    vs.reaches v vs.cells.size target = false ∧
      vs' = vs.modify v fun x => { x with target := some target } := by
  unfold bind at h
  by_cases hreaches : vs.reaches v vs.cells.size target = true
  · simp [hreaches] at h
  · simp only [hreaches] at h
    cases h
    exact ⟨by simpa using hreaches, rfl⟩

theorem targetOf_bind {v target : VarId} {vs' : Variables} (hv : v < vs.cells.size)
    (h : vs.bind v target = .ok vs') (u : VarId) :
    vs'.targetOf u = if v = u then some target else vs.targetOf u := by
  obtain ⟨_, rfl⟩ := vs.bind_eq_ok h
  unfold targetOf
  rw [find?_modify]
  by_cases heq : v = u
  · subst heq
    have hx : vs.find? v = some vs.cells[v] := Array.getElem?_eq_getElem hv
    simp [hx]
  · simp only [heq, if_false]

/-- The copy of a variable that is there is a new unbound variable with the same value. -/
theorem copy_eq {v : VarId} (hv : v < vs.cells.size) :
    ∃ x, vs.find? v = some x ∧
      vs.copy v = vs.add { x with stored := vs.get v, target := none } := by
  have hx : vs.find? v = some vs.cells[v] := Array.getElem?_eq_getElem hv
  refine ⟨vs.cells[v], hx, ?_⟩
  simp [copy, hx]

end Changes

section Keeping

variable {vs : Variables} (hvs : vs.WellBound)

include hvs

theorem WellBound.set (v : VarId) (a : Value) : (vs.set v a).WellBound := by
  apply hvs.mono
  · simp [size_set]
  · intro u t hut
    show vs.targetOf u = some t
    rw [← vs.targetOf_set v u a]
    exact hut

theorem WellBound.unbind (v : VarId) : (vs.unbind v).WellBound := by
  apply hvs.mono
  · simp [Variables.unbind, size_modify]
  · intro u t hut
    have htarget : (vs.unbind v).targetOf u = some t := hut
    rw [targetOf_unbind] at htarget
    by_cases h : v = u
    · simp [h] at htarget
    · rw [if_neg h] at htarget
      exact htarget

theorem WellBound.add (x : Variable) (hx : x.target = none) : (vs.add x).2.WellBound := by
  apply hvs.mono
  · simp [Variables.add]
  · intro u t hut
    show vs.targetOf u = some t
    rw [← vs.targetOf_add x hx u]
    exact hut

theorem WellBound.copy (v : VarId) : (vs.copy v).2.WellBound := by
  unfold Variables.copy
  split
  · exact hvs.add _ rfl
  · exact hvs.add _ rfl

omit hvs in
/-- A chain over one more binding is a chain without it, or passes it. -/
theorem transGen_of_insert {r r' : VarId → VarId → Prop} {v target : VarId}
    (hsub : ∀ a b, r' a b → r a b ∨ a = v ∧ b = target) {a b : VarId}
    (h : Relation.TransGen r' a b) :
    Relation.TransGen r a b ∨
      Relation.ReflTransGen r a v ∧ Relation.ReflTransGen r target b := by
  induction h with
  | single hab =>
    rcases hsub _ _ hab with hold | ⟨rfl, rfl⟩
    · exact .inl (.single hold)
    · exact .inr ⟨.refl, .refl⟩
  | tail _ hbc ih =>
    rcases hsub _ _ hbc with hold | ⟨rfl, rfl⟩
    · rcases ih with hchain | ⟨hto, hfrom⟩
      · exact .inl (hchain.tail hold)
      · exact .inr ⟨hto, hfrom.tail hold⟩
    · rcases ih with hchain | ⟨hto, _⟩
      · exact .inr ⟨hchain.to_reflTransGen, .refl⟩
      · exact .inr ⟨hto, .refl⟩

/-- A chain that a new binding closes led from the target to the variable before, and then
    the binding is refused. -/
theorem WellBound.bind {v target : VarId} {vs' : Variables} (htarget : target < vs.cells.size)
    (h : vs.bind v target = .ok vs') : vs'.WellBound := by
  obtain ⟨hreaches, hvs'⟩ := vs.bind_eq_ok h
  have hnone : ¬ Relation.ReflTransGen vs.Forwards target v := by
    rw [← reaches_iff hvs, hreaches]
    simp
  have hsize : vs'.cells.size = vs.cells.size := by rw [hvs', size_modify]
  have hsub : ∀ a b, vs'.Forwards a b → vs.Forwards a b ∨ a = v ∧ b = target := by
    intro a b hab
    have hthere : a < vs.cells.size := hsize ▸ hab.lt
    by_cases hav : v = a
    · subst hav
      have hnew : vs'.targetOf v = some b := hab
      rw [vs.targetOf_bind hthere h, if_pos rfl, Option.some.injEq] at hnew
      exact .inr ⟨rfl, hnew.symm⟩
    · have hold : vs'.targetOf a = some b := hab
      rw [hvs'] at hold
      unfold targetOf at hold
      rw [find?_modify, if_neg hav] at hold
      exact .inl hold
  constructor
  · intro a b hab
    rw [hsize]
    rcases hsub a b hab with hold | ⟨_, rfl⟩
    · exact hvs.target_lt a b hold
    · exact htarget
  · intro a hcycle
    rcases transGen_of_insert hsub hcycle with hold | ⟨hto, hfrom⟩
    · exact hvs.acyclic a hold
    · exact hnone (hfrom.trans hto)

end Keeping

/-! ## Section 6: Runs -/

/-- What can be done with variables. -/
inductive Operation where
  | bind (v target : VarId)
  | unbind (v : VarId)
  | set (v : VarId) (value : Value)
  | copy (v : VarId)

/-- The variables that an operation is given. -/
def Operation.operands : Operation → List VarId
  | .bind v target => [v, target]
  | .unbind v => [v]
  | .set v _ => [v]
  | .copy v => [v]

/-- Carry out an operation.  A binding that is refused leaves everything as it was. -/
def perform (vs : Variables) : Operation → Variables
  | .bind v target =>
    match vs.bind v target with
    | .ok vs' => vs'
    | .error _ => vs
  | .unbind v => vs.unbind v
  | .set v value => vs.set v value
  | .copy v => (vs.copy v).2

/-- Carry out an operation on variables that are there; on others there is none. -/
def apply (vs : Variables) (op : Operation) : Variables :=
  if ∀ v ∈ op.operands, v < vs.cells.size then vs.perform op else vs

/-- Carry out operations in a row. -/
def run (vs : Variables) (ops : List Operation) : Variables := ops.foldl apply vs

theorem perform_of_bind {vs vs' : Variables} {v target : VarId} (h : vs.bind v target = .ok vs') :
    vs.perform (.bind v target) = vs' := by
  simp [perform, h]

theorem perform_of_refused {vs : Variables} {v target : VarId} {e : GraphError}
    (h : vs.bind v target = .error e) : vs.perform (.bind v target) = vs := by
  simp [perform, h]

theorem WellBound.apply {vs : Variables} (hvs : vs.WellBound) (op : Operation) :
    (vs.apply op).WellBound := by
  unfold Variables.apply
  by_cases hthere : ∀ v ∈ op.operands, v < vs.cells.size
  · rw [if_pos hthere]
    cases op with
    | bind v target =>
      cases h : vs.bind v target with
      | ok vs' =>
        rw [perform_of_bind h]
        exact hvs.bind (hthere target (by simp [Operation.operands])) h
      | error e =>
        rw [perform_of_refused h]
        exact hvs
    | unbind v => exact hvs.unbind v
    | set v value => exact hvs.set v value
    | copy v => exact hvs.copy v
  · rw [if_neg hthere]
    exact hvs

theorem WellBound.run {vs : Variables} (hvs : vs.WellBound) (ops : List Operation) :
    (vs.run ops).WellBound := by
  induction ops generalizing vs with
  | nil => exact hvs
  | cons op rest ih => exact ih (hvs.apply op)

/-- Unbound variables. -/
theorem wellBound_of_unbound (xs : List Variable) (hxs : ∀ x ∈ xs, x.target = none) :
    (Variables.mk xs.toArray).WellBound := by
  have hnone : ∀ v t, ¬ (Variables.mk xs.toArray).Forwards v t := by
    intro v t hvt
    obtain ⟨x, hx, ht⟩ := Option.bind_eq_some_iff.mp hvt
    have hmem : x ∈ xs := by
      rw [find?, List.getElem?_toArray] at hx
      exact List.mem_of_getElem? hx
    rw [hxs x hmem] at ht
    cases ht
  constructor
  · intro v t hvt
    exact absurd hvt (hnone v t)
  · intro v hcycle
    obtain ⟨t, ht, _⟩ := Relation.TransGen.head'_iff.mp hcycle
    exact hnone v t ht

/-- **Main theorem: bindings are acyclic.**  Whatever is done with unbound variables, no chain
    of bindings is closed; so every walk along one ends, and reading, writing and looking for a
    variable end with what `get`, `set` and `reaches` give.  A binding is refused exactly if
    the target is the variable or forwards to it, and then changes nothing. -/
theorem bindings_acyclic (xs : List Variable) (hxs : ∀ x ∈ xs, x.target = none)
    (ops : List Operation) :
    let vs := (Variables.mk xs.toArray).run ops
    (∀ v, ¬ Relation.TransGen vs.Forwards v v) ∧
    (WellFounded fun t v => vs.Forwards v t) ∧
    (∀ v < vs.cells.size, ∀ a, vs.Reads v a ↔ a = vs.get v) ∧
    (∀ v a vs', vs.Writes a v vs' ↔ vs' = vs.set v a) ∧
    ∀ v target,
      (∀ b, vs.Walks v target b ↔ b = vs.reaches v vs.cells.size target) ∧
      ((∃ e, vs.bind v target = .error e) ↔ vs.Walks v target true) ∧
      ((∃ e, vs.bind v target = .error e) ↔
        target = v ∨ Relation.TransGen vs.Forwards target v) ∧
      ∀ e, vs.bind v target = .error e → vs.apply (.bind v target) = vs := by
  intro vs
  have hvs : vs.WellBound := (wellBound_of_unbound xs hxs).run ops
  refine ⟨hvs.acyclic, wellFounded_forwards hvs, reads_iff hvs, writes_iff hvs, ?_⟩
  intro v target
  refine ⟨walks_iff hvs v target, ?_, bind_error_iff hvs v target, ?_⟩
  · rw [bind_error_iff hvs, walks_iff hvs, eq_comm (a := true), reaches_iff hvs,
      Relation.reflTransGen_iff_eq_or_transGen, eq_comm (a := v)]
  · intro e he
    simp [apply, perform_of_refused he]

/-- Four unbound variables. -/
def fourVariables : List Variable :=
  ["a", "b", "c", "d"].map fun name => .shared name .int (.int 0)

/-- Three of them in a chain that may not be closed; then its middle is bound to the fourth one,
    and now its end may be bound to where it starts. -/
def rebinding : List Operation :=
  [.bind 0 1, .bind 1 2, .bind 2 0, .set 0 (.int 7), .bind 1 3, .bind 2 0]

theorem bindings_acyclic_rebinding :
    let vs := (Variables.mk fourVariables.toArray).run rebinding
    (∀ x ∈ fourVariables, x.target = none) ∧ vs.cells.size = 4 ∧
      (∃ e, vs.bind 3 2 = .error e) ∧ Relation.TransGen vs.Forwards 2 3 := by
  intro vs
  have hfree : ∀ x ∈ fourVariables, x.target = none := by decide
  have hreaches : vs.reaches 3 vs.cells.size 2 = true := by
    show ((Variables.mk fourVariables.toArray).run rebinding).reaches 3 _ 2 = true
    decide +kernel
  have hrefused : ∃ e, vs.bind 3 2 = .error e := ⟨_, if_pos hreaches⟩
  obtain ⟨_, _, _, _, hbinding⟩ := bindings_acyclic fourVariables hfree rebinding
  refine ⟨hfree, by decide +kernel, hrefused, ?_⟩
  rcases (hbinding 3 2).2.2.1.mp hrefused with heq | hchain
  · cases heq
  · exact hchain

end Variables
end FlowGraph
