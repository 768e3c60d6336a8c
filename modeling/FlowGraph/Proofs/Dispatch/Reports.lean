import FlowGraph.Proofs.Dispatch.Answers

/-! # Events of a process

    A process adds events to the store, and after a wait it goes on with another store.  What
    it reports are the events of all stretches between its waits (`Process.reported`).

    `Process.Reports` states what a process reports until it ends, for all answers to its
    waits, and that it takes no event away; it is shown step by step (`Reports.bind`).  Most
    steps of a dispatch are silent: what is recorded of the dispatch, its ledger, plays no
    part in them. -/

namespace FlowGraph

variable {α β : Type}

/-! ## Section 1: The ledger -/

namespace Store

/-- The store with other events. -/
def withEvents (s : Store) (events : Array GraphEvent) : Store := { s with events }

/-- A look at the store that does not see the events. -/
def Blind (f : Store → α) : Prop := ∀ s events, f (s.withEvents events) = f s

/-- A change of the store that neither looks at the events nor changes them. -/
def Silent (f : Store → Store) : Prop :=
  ∀ s events, f (s.withEvents events) = (f s).withEvents events

end Store

/-- What a dispatch records while it runs. -/
structure Ledger where
  events : Array GraphEvent
  steps : Nat
  trace : Array String

namespace DispatchState

/-- The state with other events. -/
def withEvents (s : DispatchState) (events : Array GraphEvent) : DispatchState :=
  { s with store := s.store.withEvents events }

/-- What was recorded so far. -/
def ledger (s : DispatchState) : Ledger := ⟨s.store.events, s.steps, s.trace⟩

/-- The state with another ledger. -/
def withLedger (s : DispatchState) (l : Ledger) : DispatchState :=
  { s with store := s.store.withEvents l.events, steps := l.steps, trace := l.trace }

@[simp] theorem ledger_withLedger (s : DispatchState) (l : Ledger) : (s.withLedger l).ledger = l :=
  rfl

@[simp] theorem withLedger_ledger (s : DispatchState) : s.withLedger s.ledger = s := rfl

end DispatchState

/-- A look at the state that does not see the ledger. -/
def Blind (f : DispatchState → α) : Prop := ∀ s l, f (s.withLedger l) = f s

/-- A change that neither looks at the ledger nor changes it. -/
def Silent (f : DispatchState → DispatchState) : Prop :=
  ∀ s l, f (s.withLedger l) = (f s).withLedger l

theorem Silent.ledger {f : DispatchState → DispatchState} (hf : Silent f) (s : DispatchState) :
    (f s).ledger = s.ledger := by
  have h := hf s s.ledger
  rw [DispatchState.withLedger_ledger] at h
  rw [h, DispatchState.ledger_withLedger]

theorem Silent.withEvents {f : DispatchState → DispatchState} (hf : Silent f) (s : DispatchState)
    (events : Array GraphEvent) : f (s.withEvents events) = (f s).withEvents events := by
  have hchange : f (s.withEvents events) = (f s).withLedger { s.ledger with events } :=
    hf s { s.ledger with events }
  rw [hchange, ← hf.ledger s]
  rfl

theorem Blind.withEvents {f : DispatchState → α} (hf : Blind f) (s : DispatchState)
    (events : Array GraphEvent) : f (s.withEvents events) = f s :=
  hf s { s.ledger with events }

theorem Store.Blind.view {f : Store → α} (hf : Store.Blind f) :
    FlowGraph.Blind fun s : DispatchState => f s.store := fun s l => hf s.store l.events

theorem Store.Silent.update {f : Store → Store} (hf : Store.Silent f) :
    FlowGraph.Silent fun s : DispatchState => { s with store := f s.store } := by
  intro s l
  show { s.withLedger l with store := f (s.store.withEvents l.events) } = _
  rw [hf]
  rfl

namespace Process

/-! ## Section 2: What a process reports -/

/-- The events that a process reports behind the first `known` ones, and after each answer
    behind those of the store that it goes on with. -/
def reported (known : Nat) : Process α → List Answer → List GraphEvent
  | .waiting _ s resume, (result, store) :: rest =>
    s.store.events.toList.drop known ++ (resume result store).reported store.events.size rest
  | p, _ => p.state.store.events.toList.drop known

/-- The process only adds events to the known ones, and however it ends, the result, the state
    and the added events are related. -/
def Reports : Process α → List GraphEvent →
    (Except GraphError α → DispatchState → List GraphEvent → Prop) → Prop
  | .done result s, known, post => ∃ es, s.store.events.toList = known ++ es ∧ post result s es
  | .waiting _ s resume, known, post => ∃ es, s.store.events.toList = known ++ es ∧
      ∀ result store, (resume result store).Reports store.events.toList
        fun result t more => post result t (es ++ more)
  | .exhausted s, known, _ => known <+: s.store.events.toList

theorem Reports.mono {p : Process α} {known : List GraphEvent}
    {post post' : Except GraphError α → DispatchState → List GraphEvent → Prop}
    (h : p.Reports known post) (himp : ∀ result t es, post result t es → post' result t es) :
    p.Reports known post' := by
  induction p generalizing known post post' with
  | done result s =>
    obtain ⟨es, hes, hpost⟩ := h
    exact ⟨es, hes, himp result s es hpost⟩
  | waiting key s resume ih =>
    obtain ⟨es, hes, hrest⟩ := h
    exact ⟨es, hes, fun result store => ih result store (hrest result store)
      fun result t more => himp result t (es ++ more)⟩
  | exhausted s => exact h

/-- Some of the events were reported before the process. -/
theorem Reports.extend {p : Process α} {known es : List GraphEvent}
    {post : Except GraphError α → DispatchState → List GraphEvent → Prop}
    (h : p.Reports (known ++ es) fun result t more => post result t (es ++ more)) :
    p.Reports known post := by
  cases p with
  | done result s =>
    obtain ⟨more, hmore, hpost⟩ := h
    exact ⟨es ++ more, by rw [hmore, List.append_assoc], hpost⟩
  | waiting key s resume =>
    obtain ⟨more, hmore, hrest⟩ := h
    refine ⟨es ++ more, by rw [hmore, List.append_assoc], fun result store => ?_⟩
    refine (hrest result store).mono fun result t later hpost => ?_
    rw [List.append_assoc]
    exact hpost
  | exhausted s => exact (List.prefix_append known es).trans h

/-- Steps in a row report what the first ones report and then what the others do. -/
theorem Reports.bind {p : Process α} {f : α → DispatchState → Process β} {known : List GraphEvent}
    {post : Except GraphError β → DispatchState → List GraphEvent → Prop}
    (h : p.Reports known fun result t es =>
      match result with
      | .ok a => (f a t).Reports t.store.events.toList fun result u more => post result u (es ++ more)
      | .error e => post (.error e) t es) :
    (p.bind f).Reports known post := by
  induction p generalizing known post with
  | done result s =>
    obtain ⟨es, hes, hrest⟩ := h
    cases result with
    | error e => exact ⟨es, hes, hrest⟩
    | ok a =>
      have hrest : (f a s).Reports s.store.events.toList
          fun result u more => post result u (es ++ more) := hrest
      rw [hes] at hrest
      exact hrest.extend
  | waiting key s resume ih =>
    obtain ⟨es, hes, hrest⟩ := h
    refine ⟨es, hes, fun result store => ih result store ?_⟩
    refine (hrest result store).mono fun result t more hpost => ?_
    cases result with
    | error e => exact hpost
    | ok a =>
      refine Reports.mono hpost fun result u later hlater => ?_
      rw [← List.append_assoc]
      exact hlater
  | exhausted s => exact h

theorem Reports.attempt {p : Process α} {known : List GraphEvent}
    {post : Except GraphError (Except GraphError α) → DispatchState → List GraphEvent → Prop}
    (h : p.Reports known fun result t es => post (.ok result) t es) :
    p.attempt.Reports known post := by
  induction p generalizing known post with
  | done result s => exact h
  | waiting key s resume ih =>
    obtain ⟨es, hes, hrest⟩ := h
    exact ⟨es, hes, fun result store => ih result store (hrest result store)⟩
  | exhausted s => exact h

/-- Steps that follow whichever way the first ones end. -/
theorem Reports.after {p : Process α} {f : Except GraphError α → DispatchState → Process β}
    {known : List GraphEvent}
    {post : Except GraphError α → DispatchState → List GraphEvent → Prop}
    {post' : Except GraphError β → DispatchState → List GraphEvent → Prop}
    (h : p.Reports known post)
    (hf : ∀ result t es, post result t es → (f result t).Reports t.store.events.toList
      fun result u more => post' result u (es ++ more)) :
    (p.attempt.bind f).Reports known post' :=
  Reports.bind (Reports.attempt (h.mono hf))

/-- For all answers, the events that were reported by the end are as stated. -/
theorem Reports.reported {p : Process α} {known : List GraphEvent}
    {post : Except GraphError α → DispatchState → List GraphEvent → Prop}
    (h : p.Reports known post) (answers : List Answer) (result : Except GraphError α)
    (t : DispatchState) (hdone : p.resumed answers = .done result t) :
    post result t (p.reported known.length answers) := by
  induction p generalizing known post answers with
  | done r s =>
    obtain ⟨es, hes, hpost⟩ := h
    cases hdone
    have hevents : (Process.done result t).reported known.length answers = es := by
      show t.store.events.toList.drop known.length = es
      rw [hes, List.drop_left]
    rw [hevents]
    exact hpost
  | waiting key s resume ih =>
    obtain ⟨es, hes, hrest⟩ := h
    cases answers with
    | nil => cases hdone
    | cons answer rest =>
      have hfirst : s.store.events.toList.drop known.length = es := by rw [hes, List.drop_left]
      have hlater := ih answer.1 answer.2 (hrest answer.1 answer.2) rest hdone
      show post result t (s.store.events.toList.drop known.length ++ _)
      rw [hfirst]
      rw [Array.length_toList] at hlater
      exact hlater
  | exhausted s => cases hdone

end Process
end FlowGraph
