import FlowGraph.Dispatch.Process
import Mathlib

/-! # Processes that end

    Whoever runs a process answers its waits, in any way and with any store.  For every list
    of answers there is what becomes of the process (`resumed`) and what it has reported by
    then (`reported`).  It may end in a way if it does so for some answers (`Ends`). -/

namespace FlowGraph

/-- How a wait ended, with the store at that time. -/
abbrev Answer := Except GraphError Unit × Store

namespace Process

variable {α β : Type}

/-- What becomes of a process if its waits are answered, as far as there are answers. -/
def resumed : Process α → List Answer → Process α
  | .waiting _ _ resume, (result, store) :: rest => (resume result store).resumed rest
  | p, _ => p

/-- The process may end in this way. -/
def Ends (p : Process α) (result : Except GraphError α) (s : DispatchState) : Prop :=
  ∃ answers, p.resumed answers = .done result s

/-! ## Section 1: Endings -/

@[simp] theorem resumed_nil (p : Process α) : p.resumed [] = p := by
  cases p <;> rfl

theorem ends_done_iff (result result' : Except GraphError α) (s t : DispatchState) :
    (Process.done result s).Ends result' t ↔ result = result' ∧ s = t := by
  constructor
  · rintro ⟨answers, h⟩
    cases h
    exact ⟨rfl, rfl⟩
  · rintro ⟨rfl, rfl⟩
    exact ⟨[], rfl⟩

theorem ends_waiting_iff (key : WaitKey) (s t : DispatchState)
    (resume : Except GraphError Unit → Store → Process α) (result : Except GraphError α) :
    (Process.waiting key s resume).Ends result t ↔
      ∃ answer store, (resume answer store).Ends result t := by
  constructor
  · rintro ⟨answers, h⟩
    cases answers with
    | nil => cases h
    | cons first rest => exact ⟨first.1, first.2, rest, h⟩
  · rintro ⟨answer, store, answers, h⟩
    exact ⟨(answer, store) :: answers, h⟩

theorem not_ends_exhausted (s t : DispatchState) (result : Except GraphError α) :
    ¬ (Process.exhausted s).Ends result t := by
  rintro ⟨answers, h⟩
  cases h

theorem eq_done_of_result? (p : Process α) (result : Except GraphError α)
    (h : p.result? = some result) : ∃ s, p = .done result s := by
  cases p with
  | done r s =>
    cases h
    exact ⟨s, rfl⟩
  | waiting key s resume => cases h
  | exhausted s => cases h

/-- A process that has ended ends as it did. -/
theorem ends_of_result? (p : Process α) (result : Except GraphError α)
    (h : p.result? = some result) : ∃ s, p.Ends result s := by
  obtain ⟨s, rfl⟩ := p.eq_done_of_result? result h
  exact ⟨s, (ends_done_iff _ _ _ _).mpr ⟨rfl, rfl⟩⟩

/-- Steps in a row end where the last ones end, or where the first ones fail. -/
theorem ends_bind (p : Process α) (f : α → DispatchState → Process β)
    (result : Except GraphError β) (t : DispatchState) (h : (p.bind f).Ends result t) :
    (∃ a s, p.Ends (.ok a) s ∧ (f a s).Ends result t) ∨
      ∃ e, p.Ends (.error e) t ∧ result = .error e := by
  induction p with
  | done first s =>
    cases first with
    | ok a => exact .inl ⟨a, s, (ends_done_iff _ _ _ _).mpr ⟨rfl, rfl⟩, h⟩
    | error e =>
      obtain ⟨rfl, rfl⟩ := (ends_done_iff _ _ _ _).mp h
      exact .inr ⟨e, (ends_done_iff _ _ _ _).mpr ⟨rfl, rfl⟩, rfl⟩
  | waiting key s resume ih =>
    obtain ⟨answer, store, hresume⟩ := (ends_waiting_iff _ _ _ _ _).mp h
    rcases ih answer store hresume with ⟨a, u, hfirst, hrest⟩ | ⟨e, hfirst, hresult⟩
    · exact .inl ⟨a, u, (ends_waiting_iff _ _ _ _ _).mpr ⟨answer, store, hfirst⟩, hrest⟩
    · exact .inr ⟨e, (ends_waiting_iff _ _ _ _ _).mpr ⟨answer, store, hfirst⟩, hresult⟩
  | exhausted s => exact absurd h (not_ends_exhausted _ _ _)

/-- Where steps in a row end without an error, the first ones end without one. -/
theorem ends_bind_ok (p : Process α) (f : α → DispatchState → Process β) (b : β)
    (t : DispatchState) (h : (p.bind f).Ends (.ok b) t) :
    ∃ a s, p.Ends (.ok a) s ∧ (f a s).Ends (.ok b) t := by
  rcases p.ends_bind f (.ok b) t h with hends | ⟨_, _, herror⟩
  · exact hends
  · cases herror

theorem ends_attempt (p : Process α) (result : Except GraphError (Except GraphError α))
    (t : DispatchState) (h : p.attempt.Ends result t) : ∃ r, result = .ok r ∧ p.Ends r t := by
  induction p with
  | done r s =>
    obtain ⟨rfl, rfl⟩ := (ends_done_iff _ _ _ _).mp h
    exact ⟨r, rfl, (ends_done_iff _ _ _ _).mpr ⟨rfl, rfl⟩⟩
  | waiting key s resume ih =>
    obtain ⟨answer, store, hresume⟩ := (ends_waiting_iff _ _ _ _ _).mp h
    obtain ⟨r, hr, hends⟩ := ih answer store hresume
    exact ⟨r, hr, (ends_waiting_iff _ _ _ _ _).mpr ⟨answer, store, hends⟩⟩
  | exhausted s => exact absurd h (not_ends_exhausted _ _ _)

end Process

namespace Exec

variable {α β : Type}

/-- From this state the computation may return a result and leave this other one. -/
def Returns (x : Exec α) (s : DispatchState) (a : α) (t : DispatchState) : Prop :=
  (x s).Ends (.ok a) t

theorem returns_pure_iff (a b : α) (s t : DispatchState) :
    Returns (pure a) s b t ↔ a = b ∧ s = t := by
  refine (Process.ends_done_iff _ _ _ _).trans ?_
  rw [Except.ok.injEq]

theorem returns_read_iff (f : DispatchState → α) (a : α) (s t : DispatchState) :
    Returns (read f) s a t ↔ f s = a ∧ s = t := by
  refine (Process.ends_done_iff _ _ _ _).trans ?_
  rw [Except.ok.injEq]

theorem returns_modify_iff (f : DispatchState → DispatchState) (s t : DispatchState) :
    Returns (modify f) s () t ↔ f s = t := by
  refine (Process.ends_done_iff _ _ _ _).trans ?_
  simp

theorem not_returns_fail (e : GraphError) (a : α) (s t : DispatchState) :
    ¬ Returns (fail e) s a t := by
  intro h
  obtain ⟨herror, _⟩ := (Process.ends_done_iff _ _ _ _).mp h
  cases herror

theorem returns_ofResult_iff (result : Except GraphError α) (a : α) (s t : DispatchState) :
    Returns (ofResult result) s a t ↔ result = .ok a ∧ s = t := by
  cases result with
  | ok b =>
    refine (returns_pure_iff b a s t).trans ?_
    rw [Except.ok.injEq]
  | error e =>
    constructor
    · intro h
      exact absurd h (not_returns_fail e a s t)
    · rintro ⟨h, _⟩
      cases h

theorem returns_bind (x : Exec α) (f : α → Exec β) (s t : DispatchState) (b : β)
    (h : Returns (x >>= f) s b t) : ∃ a u, x.Returns s a u ∧ (f a).Returns u b t :=
  Process.ends_bind_ok _ _ _ _ h

/-- Steps that look at the state first. -/
theorem returns_read_bind (f : DispatchState → α) (k : α → Exec β) (s t : DispatchState) (b : β)
    (h : Returns (read f >>= k) s b t) : (k (f s)).Returns s b t := h

/-- Steps that change the state first. -/
theorem returns_modify_bind (f : DispatchState → DispatchState) (k : Unit → Exec β)
    (s t : DispatchState) (b : β) (h : Returns (modify f >>= k) s b t) :
    (k ()).Returns (f s) b t := h

/-- A computation that is run whichever way it ends. -/
theorem returns_attempt (x : Exec α) (result : Except GraphError α) (s t : DispatchState)
    (h : x.attempt.Returns s result t) : (x s).Ends result t := by
  obtain ⟨r, hr, hends⟩ := Process.ends_attempt (x s) _ t h
  cases hr
  exact hends

end Exec
end FlowGraph
