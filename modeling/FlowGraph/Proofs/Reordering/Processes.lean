import FlowGraph.Dispatch.Execution
import FlowGraph.Proofs.Dispatch.Answers
import FlowGraph.Proofs.Reordering.Stores

/-! # Processes under other names

    Two processes are alike if they end alike, or wait for the same and go on alike whenever
    the stores that they are resumed with are alike (`Process.Alike`).  Then answers that
    are alike lead to ends that are (`Process.Alike.resumed`).

    There is a rule for each way to put steps together (`Exec.Alike`).  A call runs in
    another graph, whose handles may be related in another way, so the relation of handles
    is a parameter of the rules. -/

namespace FlowGraph

variable {α β γ δ : Type} {ren : Renaming} {N M : NodeHandle → NodeHandle → Prop}
  {Q : α → β → Prop} {R : γ → δ → Prop}

/-! ## Section 1: States and results -/

/-- Two states are the same under related names, the pending successor apart. -/
structure DispatchState.Alike (ren : Renaming) (s t : DispatchState) : Prop where
  store : s.store.Alike ren t.store
  steps : t.steps = s.steps
  trace : ∀ keep : String → Bool, (∀ guid, ren.aside guid → keep guid = false) →
    t.trace.toList.filter keep = s.trace.toList.filter keep
  returned : t.returned = s.returned

/-- So are their pending successors. -/
structure DispatchState.AlikeWith (ren : Renaming) (N : NodeHandle → NodeHandle → Prop)
    (s t : DispatchState) : Prop extends s.Alike ren t where
  next : Option.Rel N s.next t.next

/-- Two computations returned related results, or failed in the same way. -/
inductive SameResult (Q : α → β → Prop) : Except GraphError α → Except GraphError β → Prop where
  | ok (a : α) (b : β) (h : Q a b) : SameResult Q (.ok a) (.ok b)
  | error (e : GraphError) : SameResult Q (.error e) (.error e)

namespace DispatchState.AlikeWith

variable {s t : DispatchState}

theorem withStore (h : s.AlikeWith ren N t) {u v : Store} (huv : u.Alike ren v) :
    DispatchState.AlikeWith ren N { s with store := u } { t with store := v } :=
  ⟨⟨huv, h.steps, h.trace, h.returned⟩, h.next⟩

theorem withNext (h : s.AlikeWith ren N t) {a b : Option NodeHandle} (hab : Option.Rel M a b) :
    DispatchState.AlikeWith ren M { s with next := a } { t with next := b } :=
  ⟨⟨h.store, h.steps, h.trace, h.returned⟩, hab⟩

theorem withReturned (h : s.AlikeWith ren N t) (v : Option Value) :
    DispatchState.AlikeWith ren N { s with returned := v } { t with returned := v } :=
  ⟨⟨h.store, h.steps, h.trace, rfl⟩, h.next⟩

/-- Both go on to the same node, or at least to one that is left aside. -/
theorem withTrace (h : s.AlikeWith ren N t) (guid : String) :
    DispatchState.AlikeWith ren N { s with trace := s.trace.push guid }
      { t with trace := t.trace.push guid } := by
  refine ⟨⟨h.store, h.steps, fun keep hkeep => ?_, h.returned⟩, h.next⟩
  rw [Array.toList_push, Array.toList_push, List.filter_append, List.filter_append,
    h.trace keep hkeep]

theorem withSteps (h : s.AlikeWith ren N t) (n : Nat) :
    DispatchState.AlikeWith ren N { s with steps := s.steps + n } { t with steps := t.steps + n } :=
  ⟨⟨h.store, congrArg (· + n) h.steps, h.trace, h.returned⟩, h.next⟩

end DispatchState.AlikeWith

/-! ## Section 2: Alike processes -/

/-- Two processes do the same under related names. -/
inductive Process.Alike (ren : Renaming) (N : NodeHandle → NodeHandle → Prop) (Q : α → β → Prop) :
    Process α → Process β → Prop where
  | done (result : Except GraphError α) (result' : Except GraphError β) (s t : DispatchState)
      (same : SameResult Q result result') (states : s.AlikeWith ren N t) :
      Alike ren N Q (.done result s) (.done result' t)
  | waiting (key : WaitKey) (s t : DispatchState)
      (resume : Except GraphError Unit → Store → Process α)
      (resume' : Except GraphError Unit → Store → Process β) (states : s.Alike ren t)
      (resumes : ∀ answer store store', Store.Alike ren store store' →
        Alike ren N Q (resume answer store) (resume' answer store')) :
      Alike ren N Q (.waiting key s resume) (.waiting key t resume')
  | exhausted (s t : DispatchState) (states : s.Alike ren t) :
      Alike ren N Q (.exhausted s) (.exhausted t)

namespace Process.Alike

variable {p : Process α} {q : Process β}

theorem state (h : Process.Alike ren N Q p q) : p.state.Alike ren q.state := by
  cases h with
  | done _ _ _ _ _ states => exact states.toAlike
  | waiting _ _ _ _ _ states _ => exact states
  | exhausted _ _ states => exact states

/-- Answers that are alike lead to processes that are. -/
theorem resumed (h : Process.Alike ren N Q p q) (answers answers' : List Answer)
    (hanswers : List.Forall₂ (fun a b => b.1 = a.1 ∧ Store.Alike ren a.2 b.2) answers answers') :
    Process.Alike ren N Q (p.resumed answers) (q.resumed answers') := by
  induction hanswers generalizing p q with
  | nil =>
    rw [resumed_nil, resumed_nil]
    exact h
  | @cons a b _ _ hab _ ih =>
    cases h with
    | done result result' s t same states => exact .done _ _ _ _ same states
    | waiting key s t resume resume' states resumes =>
      obtain ⟨result, store⟩ := a
      obtain ⟨result', store'⟩ := b
      obtain ⟨rfl, hstores⟩ : result' = result ∧ Store.Alike ren store store' := hab
      exact ih (resumes result' store store' hstores)
    | exhausted s t states => exact .exhausted s t states

theorem bind (h : Process.Alike ren N Q p q) (f : α → DispatchState → Process γ)
    (g : β → DispatchState → Process δ)
    (hfg : ∀ a b s t, Q a b → s.AlikeWith ren N t → Process.Alike ren N R (f a s) (g b t)) :
    Process.Alike ren N R (p.bind f) (q.bind g) := by
  induction h with
  | done result result' s t same states =>
    cases same with
    | ok a b hab => exact hfg a b s t hab states
    | error e => exact .done _ _ s t (.error e) states
  | waiting key s t resume resume' states _ ih => exact .waiting key s t _ _ states ih
  | exhausted s t states => exact .exhausted s t states

/-- Going on whichever way a computation ends; here the relation of handles may change. -/
theorem after (h : Process.Alike ren M Q p q)
    (f : Except GraphError α → DispatchState → Process γ)
    (g : Except GraphError β → DispatchState → Process δ)
    (hfg : ∀ r r' s t, SameResult Q r r' → s.AlikeWith ren M t →
      Process.Alike ren N R (f r s) (g r' t)) :
    Process.Alike ren N R (p.attempt.bind f) (q.attempt.bind g) := by
  induction h with
  | done result result' s t same states => exact hfg result result' s t same states
  | waiting key s t resume resume' states _ ih => exact .waiting key s t _ _ states ih
  | exhausted s t states => exact .exhausted s t states

end Process.Alike

/-! ## Section 3: Alike steps -/

/-- From states that are alike the steps do the same. -/
def Exec.Alike (ren : Renaming) (N : NodeHandle → NodeHandle → Prop) (Q : α → β → Prop)
    (x : Exec α) (y : Exec β) : Prop :=
  ∀ s t, s.AlikeWith ren N t → Process.Alike ren N Q (x s) (y t)

namespace Exec.Alike

theorem pure (a : α) (b : β) (h : Q a b) :
    Exec.Alike ren N Q (Pure.pure a) (Pure.pure b) :=
  fun _ _ hst => .done _ _ _ _ (.ok a b h) hst

theorem fail (e : GraphError) : Exec.Alike ren N Q (Exec.fail e) (Exec.fail e) :=
  fun _ _ hst => .done _ _ _ _ (.error e) hst

theorem ofResult (r : Except GraphError α) (r' : Except GraphError β) (h : SameResult Q r r') :
    Exec.Alike ren N Q (Exec.ofResult r) (Exec.ofResult r') := by
  cases h with
  | ok a b hab => exact .pure a b hab
  | error e => exact .fail e

theorem read (f : DispatchState → α) (g : DispatchState → β)
    (h : ∀ s t, s.AlikeWith ren N t → Q (f s) (g t)) :
    Exec.Alike ren N Q (Exec.read f) (Exec.read g) :=
  fun s t hst => .done _ _ s t (.ok _ _ (h s t hst)) hst

theorem view (f : Store → α) (g : Store → β) (h : ∀ s t, Store.Alike ren s t → Q (f s) (g t)) :
    Exec.Alike ren N Q (Exec.view f) (Exec.view g) :=
  .read _ _ fun _ _ hst => h _ _ hst.store

theorem modify (f g : DispatchState → DispatchState)
    (h : ∀ s t, s.AlikeWith ren N t → (f s).AlikeWith ren N (g t)) :
    Exec.Alike ren N Eq (Exec.modify f) (Exec.modify g) :=
  fun s t hst => .done _ _ _ _ (.ok () () rfl) (h s t hst)

theorem update (f g : Store → Store)
    (h : ∀ s t, Store.Alike ren s t → (f s).Alike ren (g t)) :
    Exec.Alike ren N Eq (Exec.update f) (Exec.update g) :=
  .modify _ _ fun s t hst => hst.withStore (h s.store t.store hst.store)

theorem bind {x : Exec α} {y : Exec β} {k : α → Exec γ} {k' : β → Exec δ}
    (hx : Exec.Alike ren N Q x y) (hk : ∀ a b, Q a b → Exec.Alike ren N R (k a) (k' b)) :
    Exec.Alike ren N R (x >>= k) (y >>= k') :=
  fun s t hst => (hx s t hst).bind _ _ fun a b s t hab hst => hk a b hab s t hst

/-- After steps that return the same, both go on with it. -/
theorem bindEq {x y : Exec α} {k : α → Exec γ} {k' : α → Exec δ} (hx : Exec.Alike ren N Eq x y)
    (hk : ∀ a, Exec.Alike ren N R (k a) (k' a)) : Exec.Alike ren N R (x >>= k) (y >>= k') :=
  hx.bind fun a _ hab => hab ▸ hk a

theorem attempt {x : Exec α} {y : Exec β} (hx : Exec.Alike ren N Q x y) :
    Exec.Alike ren N (SameResult Q) x.attempt y.attempt := by
  intro s t hst
  have hafter := (hx s t hst).after (R := SameResult Q) _ _ fun r r' s t hr hst =>
    .done (.ok r) (.ok r') s t (.ok r r' hr) hst
  rw [Process.bind_done, Process.bind_done] at hafter
  exact hafter

theorem forEach {ι κ : Type} {S : ι → κ → Prop} {xs : List ι} {ys : List κ} (f : ι → Exec Unit)
    (g : κ → Exec Unit) (hxs : List.Forall₂ S xs ys)
    (hfg : ∀ x y, S x y → Exec.Alike ren N Eq (f x) (g y)) :
    Exec.Alike ren N Eq (Exec.forEach xs f) (Exec.forEach ys g) := by
  induction hxs with
  | nil => exact .pure () () rfl
  | cons hxy _ ih => exact (hfg _ _ hxy).bindEq fun _ => ih

/-- The same wait ends in the same way. -/
theorem await (key : WaitKey) : Exec.Alike ren N Eq (Exec.await key) (Exec.await key) := by
  intro s t hst
  have hreleased : ∀ store store' : Store, store.Alike ren store' →
      Store.Alike ren { store with scheduler := store.scheduler.release key }
        { store' with scheduler := store'.scheduler.release key } := by
    intro store store' hstores
    rw [hstores.scheduler]
    exact hstores.withScheduler _
  have hsame : ∀ result : Except GraphError Unit, SameResult Eq result result := by
    rintro (e | ⟨⟩)
    · exact .error e
    · exact .ok () () rfl
  unfold Exec.await
  simp only [hst.store.scheduler]
  have hstarted := hst.store.withScheduler (s.store.scheduler.start key).2
  cases (s.store.scheduler.start key).1 with
  | some result => exact .done _ _ _ _ (hsame result) (hst.withStore (hreleased _ _ hstarted))
  | none =>
    refine .waiting key _ _ _ _ (hst.withStore hstarted).toAlike fun answer store store' hstores => ?_
    exact .done _ _ _ _ (hsame answer) (hst.withStore (hreleased store store' hstores))

/-- Sub-executions that are alike.  A part of the state is put back behind them, so that
    inside other handles may be pending. -/
theorem enclosed {π : Type} (part : DispatchState → π)
    (restore : π → DispatchState → DispatchState) {x : Exec α} {y : Exec β}
    (hx : ∀ s t, s.AlikeWith ren N t → Process.Alike ren M Q (x s) (y t))
    (hrestore : ∀ s t u v, s.AlikeWith ren N t → u.AlikeWith ren M v →
      (restore (part s) u).AlikeWith ren N (restore (part t) v)) :
    Exec.Alike ren N Q (Site.enclosed part restore x) (Site.enclosed part restore y) := by
  intro s t hst
  refine (hx s t hst).after (f := fun r u => Exec.ofResult r (restore (part s) u))
    (g := fun r v => Exec.ofResult r (restore (part t) v)) fun r r' u v hr huv => ?_
  exact Exec.Alike.ofResult r r' hr _ _ (hrestore s t u v hst huv)

end Exec.Alike
end FlowGraph
