import FlowGraph.Tasks
import Mathlib

/-! # Pending waits

    What the number of pending waits says about the tokens of a scheduler.  An observer sees
    the operations and their answers, and keeps for each token what became of it (`Token`).

    A wait leaves the table of pending waits when it is over, or when it is cancelled by its
    id or with all others; cancelled through its handle, it stays there until it is over.
    The ids of a counter that starts at 1 are distinct.  One that starts at 0 gives the first
    two tokens the same id, so that what happens to one of them is done to the entry of
    the other.

    Main statement: `size_of_run`. -/

namespace FlowGraph

namespace Scheduler

/-! ## Section 1: Operations -/

/-- What can be done with a scheduler and the tokens that it issued.  A token is named by the
    key of its wait. -/
inductive Operation where
  | delay (milliseconds : Nat)
  /-- Time passes, and the alarms ring whose time has come. -/
  | advance (milliseconds : Nat)
  /-- Begin to await a token. -/
  | await (key : WaitKey)
  /-- Look again at the wait of a token that is awaited. -/
  | wake (key : WaitKey)
  | cancel (id : Nat)
  | cancelHandle (key : WaitKey)
  | cancelAll
  /-- Drop a token, or the computation that awaits it. -/
  | drop (key : WaitKey)
  deriving DecidableEq

/-- What an operation answers. -/
inductive Answer where
  /-- A new token with this id. -/
  | issued (id : Nat)
  /-- Whether the wait has ended. -/
  | ended (b : Bool)
  | none
  deriving DecidableEq

namespace Operation

def isDelay : Operation → Bool
  | delay _ => true
  | _ => false

/-- The scheduler after an operation. -/
def apply (s : Scheduler) : Operation → Scheduler
  | delay ms => (s.delay ms).2
  | advance ms => (s.advance ms).ring
  | await key => if (s.start key).1.isSome then (s.start key).2.release key else (s.start key).2
  | wake key => if (s.poll key).isSome then s.release key else s
  | cancel id => (s.cancel id).2
  | cancelHandle key => s.cancelKey key
  | cancelAll => s.cancelAll.2
  | drop key => s.release key

/-- The answer of an operation. -/
def answer (s : Scheduler) : Operation → Answer
  | delay ms => .issued ((((s.delay ms).2.find? (s.delay ms).1).map (·.id)).getD 0)
  | await key => .ended (s.start key).1.isSome
  | wake key => .ended (s.poll key).isSome
  | _ => .none

end Operation

/-- The scheduler after some operations. -/
def run (s : Scheduler) (ops : List Operation) : Scheduler := ops.foldl Operation.apply s

/-- A computation awaits a token by these operations. -/
theorem await_scheduler (key : WaitKey) (d : DispatchState) :
    (Exec.await key d).state.store.scheduler = Operation.apply d.store.scheduler (.await key) := by
  simp only [Exec.await, Operation.apply]
  cases (d.store.scheduler.start key).1 with
  | none => rfl
  | some result => rfl

theorem wake_scheduler (key : WaitKey) (d : DispatchState) (store : Store) (p : Process Unit)
    (hp : (Exec.await key d).wake? store = some p) :
    p.state.store.scheduler = Operation.apply store.scheduler (.wake key) := by
  simp only [Exec.await] at hp
  cases hstart : (d.store.scheduler.start key).1 with
  | some result =>
    rw [hstart] at hp
    cases hp
  | none =>
    rw [hstart] at hp
    obtain ⟨result, hresult, rfl⟩ := Option.map_eq_some_iff.mp hp
    simp [Operation.apply, hresult, Process.state]

/-! ## Section 2: Tokens -/

/-- What became of a token. -/
structure Token where
  id : Nat
  /-- Its wait has ended, or it was dropped. -/
  gone : Bool := false
  /-- It was cancelled by its id or with all others. -/
  withdrawn : Bool := false
  /-- It was cancelled through its handle. -/
  cancelled : Bool := false
  /-- When it was issued, another token had its id and was not over. -/
  shares : Bool := false
  deriving DecidableEq

namespace Token

/-- Whether a token is live: neither finished, nor cancelled by whichever means, nor dropped. -/
def live (t : Token) : Bool := !t.gone && !t.withdrawn && !t.cancelled

/-- Whether the wait of a token is listed as pending. -/
def listed (t : Token) : Bool := !t.gone && !t.withdrawn

/-- What an operation does to a token. -/
def revise (op : Operation) (answer : Answer) (key : WaitKey) (t : Token) : Token :=
  match op, answer with
  | .await k, .ended true => if key = k then { t with gone := true } else t
  | .wake k, .ended true => if key = k then { t with gone := true } else t
  | .drop k, _ => if key = k then { t with gone := true } else t
  | .cancel id, _ => if t.id = id then { t with withdrawn := true } else t
  | .cancelAll, _ => { t with withdrawn := true }
  | .cancelHandle k, _ => if key = k then { t with cancelled := true } else t
  | _, _ => t

/-- The tokens after an operation, by their keys. -/
def enter (tokens : List Token) (op : Operation) (answer : Answer) : List Token :=
  match answer with
  | .issued id => tokens ++ [{ id, shares := tokens.any fun t => t.id = id && !t.gone }]
  | _ => tokens.mapIdx (revise op answer)

theorem length_enter (tokens : List Token) (op : Operation) (s : Scheduler) :
    (enter tokens op (op.answer s)).length =
      tokens.length + if op.isDelay = true then 1 else 0 := by
  cases op with
  | delay ms => simp [enter, Operation.answer, Operation.isDelay]
  | _ => simp [enter, Operation.answer, Operation.isDelay]

end Token

/-- The tokens that were issued in some operations, by their keys. -/
def tokensOf (s : Scheduler) (tokens : List Token) : List Operation → List Token
  | [] => tokens
  | op :: rest => tokensOf (op.apply s) (Token.enter tokens op (op.answer s)) rest

/-- No token got the id of another one that was not over. -/
def Apart (tokens : List Token) : Prop := ∀ t ∈ tokens, t.shares = false

instance (tokens : List Token) : Decidable (Apart tokens) :=
  inferInstanceAs (Decidable (∀ t ∈ tokens, t.shares = false))

/-! ## Section 3: The table of pending waits -/

/-- What the table and the release of a wait depend on. -/
def marks (s : Scheduler) (key : WaitKey) : Option (Nat × Bool × Bool) :=
  (s.find? key).map fun w => (w.id, w.scheduled, w.released)

/-- The counter, the table and the marks are the same. -/
structure Quiet (s s' : Scheduler) : Prop where
  nextId : s'.nextId = s.nextId
  size : s'.waits.size = s.waits.size
  marks : ∀ key, s'.marks key = s.marks key
  pending : s'.pending = s.pending

namespace Quiet

variable {s s' s'' : Scheduler}

theorem refl (s : Scheduler) : Quiet s s := ⟨rfl, rfl, fun _ => rfl, rfl⟩

theorem trans (h : Quiet s s') (h' : Quiet s' s'') : Quiet s s'' where
  nextId := h'.nextId.trans h.nextId
  size := h'.size.trans h.size
  marks key := (h'.marks key).trans (h.marks key)
  pending := h'.pending.trans h.pending

/-- A change of a wait that keeps its marks. -/
theorem modify (s : Scheduler) (key : WaitKey) (f : Wait → Wait) (woken : List WaitKey)
    (hf : ∀ w, (f w).id = w.id ∧ (f w).scheduled = w.scheduled ∧ (f w).released = w.released) :
    Quiet s { s with waits := s.waits.modify key f, woken } where
  nextId := rfl
  size := by simp
  marks k := by
    unfold Scheduler.marks find?
    rw [Array.getElem?_modify]
    by_cases hk : key = k
    · rw [if_pos hk, Option.map_map]
      refine congrArg (Option.map · _) (funext fun w => ?_)
      simp [hf w]
    · rw [if_neg hk]
  pending := rfl

theorem cancelKey (s : Scheduler) (key : WaitKey) : Quiet s (s.cancelKey key) :=
  modify s key _ _ fun _ => ⟨rfl, rfl, rfl⟩

theorem ringKey (s : Scheduler) (key : WaitKey) : Quiet s (s.ringKey key) :=
  modify s key _ _ fun _ => ⟨rfl, rfl, rfl⟩

theorem foldl {α : Type} (step : Scheduler → α → Scheduler) (hstep : ∀ s x, Quiet s (step s x))
    (xs : List α) (s : Scheduler) : Quiet s (xs.foldl step s) := by
  induction xs generalizing s with
  | nil => exact refl s
  | cons x rest ih => exact (hstep s x).trans (ih _)

theorem ring (s : Scheduler) : Quiet s s.ring := by
  have h := foldl _ ringKey (s.wheel.turn (min s.now lastMoment)).1
    { s with wheel := (s.wheel.turn (min s.now lastMoment)).2 }
  exact ⟨h.nextId, h.size, h.marks, h.pending⟩

theorem start (s : Scheduler) (key : WaitKey) : Quiet s (s.start key).2 := by
  unfold Scheduler.start
  split
  · exact refl s
  · split
    · exact refl s
    · split
      · split
        · exact refl s
        · exact ⟨rfl, rfl, fun _ => rfl, rfl⟩
      · exact refl s
      · exact refl s

end Quiet

/-- Cancelling by an id takes the id off the table, whether it is there or not. -/
theorem cancel_spec (s : Scheduler) (id : Nat) :
    Quiet { s with pending := s.pending.filter (·.1 ≠ id) } (s.cancel id).2 := by
  unfold cancel
  cases hfind : s.pending.find? (·.1 = id) with
  | some e => exact Quiet.cancelKey (s.unlist id) e.2
  | none =>
    have hself : s.pending.filter (·.1 ≠ id) = s.pending := by
      refine List.filter_eq_self.mpr fun e he => ?_
      have hne := List.find?_eq_none.mp hfind e he
      simpa using hne
    rw [hself]
    exact Quiet.refl s

theorem cancelAll_spec (s : Scheduler) : Quiet { s with pending := [] } s.cancelAll.2 := by
  have h := Quiet.foldl (fun s (e : Nat × WaitKey) => s.cancelKey e.2)
    (fun s e => Quiet.cancelKey s e.2) s.pending s
  exact ⟨h.nextId, h.size, h.marks, rfl⟩

/-- Releasing a scheduled wait takes its id off the table, the first time. -/
theorem release_spec (s : Scheduler) (key : WaitKey) (id : Nat) (released : Bool)
    (hmarks : s.marks key = some (id, true, released)) :
    (s.release key).nextId = s.nextId ∧ (s.release key).waits.size = s.waits.size ∧
      (∀ k, (s.release key).marks k = if k = key then some (id, true, true) else s.marks k) ∧
      (s.release key).pending =
        if released then s.pending else s.pending.filter (·.1 ≠ id) := by
  unfold marks at hmarks
  obtain ⟨w, hw, hmark⟩ := Option.map_eq_some_iff.mp hmarks
  obtain ⟨rfl, hscheduled, rfl⟩ : w.id = id ∧ w.scheduled = true ∧ w.released = released := by
    simpa using hmark
  unfold release
  simp only [hw, hscheduled, if_true]
  by_cases hreleased : w.released = true
  · simp only [hreleased, if_true]
    refine ⟨trivial, trivial, fun k => ?_, trivial⟩
    by_cases hk : k = key
    · rw [if_pos hk, hk, marks, hw, Option.map_some, hscheduled, hreleased]
    · rw [if_neg hk]
  · simp only [hreleased, unlist]
    refine ⟨rfl, by simp, fun k => ?_, rfl⟩
    unfold marks find? at *
    simp only [Bool.false_eq_true, if_false, Array.getElem?_modify]
    by_cases hk : k = key
    · simp [hk, hw, hscheduled]
    · simp [hk, Ne.symm hk]

theorem release_of_marks_none (s : Scheduler) (key : WaitKey) (hmarks : s.marks key = none) :
    s.release key = s := by
  unfold marks at hmarks
  rw [Option.map_eq_none_iff] at hmarks
  simp [release, hmarks]

/-! ## Section 4: What every operation keeps -/

/-- The table holds the tokens that are listed, each once. -/
structure Listed (tokens : List Token) (pending : List (Nat × WaitKey)) : Prop where
  nodup : (pending.map Prod.snd).Nodup
  mem_iff : ∀ id key, (id, key) ∈ pending ↔
    ∃ t, tokens[key]? = some t ∧ t.id = id ∧ t.listed = true

/-- A scheduler whose counter started at `first` and what was seen of it agree. -/
structure Agrees (first : Nat) (tokens : List Token) (s : Scheduler) : Prop where
  nextId : s.nextId = (first + tokens.length) % twoTo 64
  size : s.waits.size = tokens.length
  marks : ∀ key, s.marks key = (tokens[key]?).map fun t => (t.id, true, t.gone)
  /-- The ids are the values of the counter, in order. -/
  ids : tokens.map (·.id) = (List.range tokens.length).map fun k => max (first + k) 1
  /-- A token that shares its id was not the first one with it. -/
  shares : ∀ (j : Nat) (t : Token), tokens[j]? = some t → t.shares = true →
    ∃ (i : Nat) (t' : Token), i < j ∧ tokens[i]? = some t' ∧ t'.id = t.id
  apart : Apart tokens → ∀ (i j : Nat) (t t' : Token), tokens[i]? = some t → tokens[j]? = some t' →
    t.gone = false → t'.gone = false → t.id = t'.id → i = j
  listed : Apart tokens → Listed tokens s.pending

theorem agrees_initial (first : Nat) (hfirst : first ≤ 1) :
    Agrees first [] ({ nextId := first } : Scheduler) where
  nextId := by
    have hsmall : first < twoTo 64 := lt_of_le_of_lt hfirst (by decide)
    exact (Nat.mod_eq_of_lt hsmall).symm
  size := rfl
  marks key := by simp [marks, find?]
  ids := rfl
  shares j t ht := by simp at ht
  apart _ i j t t' ht := by simp at ht
  listed _ := ⟨List.nodup_nil, by simp⟩

namespace Agrees

variable {first : Nat} {tokens : List Token} {s s' : Scheduler}

/-- Operations that issue no token, but may end or cancel some. -/
theorem revise (h : Agrees first tokens s) (f : WaitKey → Token → Token)
    (hid : ∀ k t, (f k t).id = t.id) (hshares : ∀ k t, (f k t).shares = t.shares)
    (hgone : ∀ k t, (f k t).gone = false → t.gone = false)
    (hnextId : s'.nextId = s.nextId) (hsize : s'.waits.size = s.waits.size)
    (hmarks : ∀ k, s'.marks k = ((tokens[k]?).map (f k)).map fun t => (t.id, true, t.gone))
    (hlisted : Apart tokens → Listed (tokens.mapIdx f) s'.pending) :
    Agrees first (tokens.mapIdx f) s' := by
  have hget : ∀ k : Nat, (tokens.mapIdx f)[k]? = (tokens[k]?).map (f k) := fun k => List.getElem?_mapIdx
  have hapart : Apart (tokens.mapIdx f) → Apart tokens := by
    intro ha t ht
    obtain ⟨k, hk⟩ := List.mem_iff_getElem?.mp ht
    have hmem : f k t ∈ tokens.mapIdx f := List.mem_iff_getElem?.mpr ⟨k, by rw [hget, hk]; rfl⟩
    rw [← hshares k t]
    exact ha _ hmem
  constructor
  · rw [hnextId, h.nextId, List.length_mapIdx]
  · rw [hsize, h.size, List.length_mapIdx]
  · intro k
    rw [hmarks, hget]
  · have hsame : (tokens.mapIdx f).map (·.id) = tokens.map (·.id) := by
      apply List.ext_getElem?
      intro k
      rw [List.getElem?_map, hget, List.getElem?_map, Option.map_map]
      exact congrArg (Option.map · _) (funext fun t => hid k t)
    rw [hsame, List.length_mapIdx]
    exact h.ids
  · intro j t ht hshared
    rw [hget] at ht
    obtain ⟨t₀, ht₀, rfl⟩ := Option.map_eq_some_iff.mp ht
    rw [hshares] at hshared
    obtain ⟨i, t', hij, ht', heq⟩ := h.shares j t₀ ht₀ hshared
    exact ⟨i, f i t', hij, by rw [hget, ht']; rfl, by rw [hid, hid]; exact heq⟩
  · intro ha i j t t' ht ht' hgoing hgoing' heq
    rw [hget] at ht ht'
    obtain ⟨t₀, ht₀, rfl⟩ := Option.map_eq_some_iff.mp ht
    obtain ⟨t₁, ht₁, rfl⟩ := Option.map_eq_some_iff.mp ht'
    rw [hid, hid] at heq
    exact h.apart (hapart ha) i j t₀ t₁ ht₀ ht₁ (hgone i t₀ hgoing) (hgone j t₁ hgoing') heq
  · exact fun ha => hlisted (hapart ha)

/-- Operations after which the same tokens are listed. -/
theorem quiet (h : Agrees first tokens s) (f : WaitKey → Token → Token)
    (hf : ∀ k t, (f k t).id = t.id ∧ (f k t).shares = t.shares ∧ (f k t).gone = t.gone ∧
      (f k t).withdrawn = t.withdrawn) (hs : Quiet s s') : Agrees first (tokens.mapIdx f) s' := by
  refine h.revise f (fun k t => (hf k t).1) (fun k t => (hf k t).2.1)
    (fun k t hg => (hf k t).2.2.1 ▸ hg) hs.nextId hs.size (fun k => ?_) fun ha => ?_
  · rw [hs.marks, h.marks, Option.map_map]
    refine congrArg (Option.map · _) (funext fun t => ?_)
    simp [(hf k t).1, (hf k t).2.2.1]
  · rw [hs.pending]
    refine ⟨(h.listed ha).nodup, fun id key => ?_⟩
    rw [(h.listed ha).mem_iff, List.getElem?_mapIdx]
    constructor
    · rintro ⟨t, ht, hid, hlisted⟩
      refine ⟨f key t, by rw [ht]; rfl, (hf key t).1.trans hid, ?_⟩
      rw [Token.listed, (hf key t).2.2.1, (hf key t).2.2.2]
      exact hlisted
    · rintro ⟨t', ht', hid, hlisted⟩
      obtain ⟨t, ht, rfl⟩ := Option.map_eq_some_iff.mp ht'
      refine ⟨t, ht, (hf key t).1.symm.trans hid, ?_⟩
      rw [Token.listed, (hf key t).2.2.1, (hf key t).2.2.2] at hlisted
      exact hlisted

/-- Nothing happens to the tokens. -/
theorem still (h : Agrees first tokens s) (hs : Quiet s s') : Agrees first tokens s' := by
  have hsame : (tokens.mapIdx fun _ t => t) = tokens := by
    rw [List.mapIdx_eq_zipIdx_map]
    exact List.zipIdx_map_fst 0 tokens
  rw [← hsame]
  exact h.quiet _ (fun _ _ => ⟨rfl, rfl, rfl, rfl⟩) hs

/-- Taking the id of a token off the table takes off nothing but the token. -/
theorem mem_released (h : Agrees first tokens s) (ha : Apart tokens) (key : WaitKey) (t : Token)
    (ht : tokens[key]? = some t) (id : Nat) (k : WaitKey) :
    (id, k) ∈ (if t.gone = true then s.pending else s.pending.filter (·.1 ≠ t.id)) ↔
      (id, k) ∈ s.pending ∧ k ≠ key := by
  have hl := h.listed ha
  have hsame : ∀ t', tokens[key]? = some t' → t' = t := by
    intro t' ht'
    rw [ht, Option.some.injEq] at ht'
    exact ht'.symm
  by_cases hgone : t.gone = true
  · rw [if_pos hgone, iff_self_and, hl.mem_iff]
    rintro ⟨t', ht', _, hlisted⟩ rfl
    rw [hsame t' ht'] at hlisted
    simp [Token.listed, hgone] at hlisted
  · rw [if_neg hgone, List.mem_filter, decide_eq_true_eq]
    refine and_congr_right fun hmem => ?_
    obtain ⟨t', ht', rfl, hlisted⟩ := (hl.mem_iff id k).mp hmem
    constructor
    · rintro hne rfl
      exact hne (congrArg Token.id (hsame t' ht'))
    · intro hne heq
      have hgoing : t'.gone = false := by
        simp only [Token.listed, Bool.and_eq_true, Bool.not_eq_true'] at hlisted
        exact hlisted.1
      exact hne (h.apart ha k key t' t ht' ht hgoing (by simpa using hgone) heq)

/-- The end of a token's wait, or its drop. -/
theorem release (h : Agrees first tokens s) (key : WaitKey) :
    Agrees first (tokens.mapIdx fun k t => if k = key then { t with gone := true } else t)
      (s.release key) := by
  have hmarks := h.marks key
  cases hkey : tokens[key]? with
  | none =>
    -- there is no such token
    rw [hkey] at hmarks
    rw [s.release_of_marks_none key hmarks]
    have hsame : (tokens.mapIdx fun k t => if k = key then { t with gone := true } else t)
        = tokens := by
      refine List.ext_getElem? fun k => ?_
      rw [List.getElem?_mapIdx]
      by_cases hk : k = key
      · rw [hk, hkey]
        rfl
      · simp [hk]
    rw [hsame]
    exact h
  | some t =>
    rw [hkey] at hmarks
    obtain ⟨hnextId, hsize, hmark, hpending⟩ := s.release_spec key t.id t.gone hmarks
    refine h.revise _ ?_ ?_ ?_ hnextId hsize (fun k => ?_) fun ha => ?_
    · intro k t'
      split <;> rfl
    · intro k t'
      split <;> rfl
    · intro k t'
      split
      · simp
      · exact id
    · rw [hmark]
      by_cases hk : k = key
      · simp [hk, hkey]
      · simp [hk, h.marks]
    · have hl := h.listed ha
      rw [hpending]
      constructor
      · split
        · exact hl.nodup
        · exact hl.nodup.sublist (List.filter_sublist.map _)
      · intro id k
        rw [h.mem_released ha key t hkey, hl.mem_iff, List.getElem?_mapIdx]
        by_cases hk : k = key
        · simp [hk, hkey, Token.listed]
        · simp [hk]

/-- Cancelling the tokens of an id. -/
theorem cancel (h : Agrees first tokens s) (id : Nat) :
    Agrees first (tokens.mapIdx fun _ t => if t.id = id then { t with withdrawn := true } else t)
      (s.cancel id).2 := by
  have hs := s.cancel_spec id
  refine h.revise _ ?_ ?_ ?_ hs.nextId hs.size (fun k => ?_) fun ha => ?_
  · intro k t
    split <;> rfl
  · intro k t
    split <;> rfl
  · intro k t
    split <;> exact fun hg => hg
  · rw [hs.marks]
    show s.marks k = _
    rw [h.marks, Option.map_map]
    refine congrArg (Option.map · _) (funext fun t => ?_)
    by_cases hid : t.id = id
    · simp [hid]
    · simp [hid]
  · have hl := h.listed ha
    rw [hs.pending]
    refine ⟨hl.nodup.sublist (List.filter_sublist.map _), fun id' k => ?_⟩
    rw [List.mem_filter, hl.mem_iff, List.getElem?_mapIdx, decide_eq_true_eq]
    constructor
    · rintro ⟨⟨t, ht, rfl, hlisted⟩, hne⟩
      exact ⟨t, by simp [ht, hne], rfl, hlisted⟩
    · rintro ⟨t', ht', hid', hlisted⟩
      obtain ⟨t, ht, rfl⟩ := Option.map_eq_some_iff.mp ht'
      by_cases hid : t.id = id
      · simp [hid, Token.listed] at hlisted
      · rw [if_neg hid] at hid' hlisted
        exact ⟨⟨t, ht, hid', hlisted⟩, hid' ▸ hid⟩

theorem cancelAll (h : Agrees first tokens s) :
    Agrees first (tokens.mapIdx fun _ t => { t with withdrawn := true }) s.cancelAll.2 := by
  have hs := s.cancelAll_spec
  refine h.revise _ (fun _ _ => rfl) (fun _ _ => rfl) (fun _ _ hg => hg) hs.nextId hs.size
    (fun k => ?_) fun ha => ?_
  · rw [hs.marks]
    show s.marks k = _
    rw [h.marks, Option.map_map]
    rfl
  · rw [hs.pending]
    refine ⟨List.nodup_nil, fun id k => ?_⟩
    rw [List.getElem?_mapIdx]
    constructor
    · intro hmem
      cases hmem
    · rintro ⟨t', ht', _, hlisted⟩
      obtain ⟨t, ht, rfl⟩ := Option.map_eq_some_iff.mp ht'
      simp [Token.listed] at hlisted

/-- A new token, whose id is the next value of the counter. -/
theorem issue (h : Agrees first tokens s) (t : Token) (hid : t.id = max (first + tokens.length) 1)
    (hgone : t.gone = false) (hlisted : t.listed = true)
    (hshares : t.shares = tokens.any fun t' => t'.id = t.id && !t'.gone)
    (hnextId : s'.nextId = (s.nextId + 1) % twoTo 64)
    (hsize : s'.waits.size = s.waits.size + 1)
    (hmarks : ∀ k, s'.marks k = if k = tokens.length then some (t.id, true, false) else s.marks k)
    (hpending : s'.pending = s.pending.filter (·.1 ≠ t.id) ++ [(t.id, tokens.length)]) :
    Agrees first (tokens ++ [t]) s' := by
  have hget : ∀ k : Nat, (tokens ++ [t])[k]? =
      if k = tokens.length then some t else tokens[k]? := by
    intro k
    by_cases hk : k = tokens.length
    · simp [hk]
    · rw [if_neg hk, List.getElem?_append]
      split
      · rfl
      · rw [List.getElem?_eq_none (by simp; omega), List.getElem?_eq_none (by omega)]
  have hapart : Apart (tokens ++ [t]) → Apart tokens ∧ t.shares = false := fun ha =>
    ⟨fun t' ht' => ha t' (List.mem_append_left _ ht'), ha t (by simp)⟩
  -- a token that shares its id with none that is not over
  have hfirst : t.shares = false → ∀ (k : Nat) (t' : Token), tokens[k]? = some t' →
      t'.gone = false → t'.id ≠ t.id := by
    intro hnone k t' ht' hgoing heq
    rw [hshares, List.any_eq_false] at hnone
    simpa [heq, hgoing] using hnone t' (List.mem_of_getElem? ht')
  constructor
  · rw [hnextId, h.nextId, List.length_append, List.length_singleton, Nat.mod_add_mod,
      Nat.add_assoc]
  · rw [hsize, h.size, List.length_append, List.length_singleton]
  · intro k
    rw [hmarks, hget]
    by_cases hk : k = tokens.length
    · rw [if_pos hk, if_pos hk, Option.map_some, hgone]
    · rw [if_neg hk, if_neg hk, h.marks]
  · rw [List.map_append, h.ids, List.length_append, List.length_singleton, List.range_succ,
      List.map_append, List.map_singleton, List.map_singleton, hid]
  · intro j t' ht' hshared
    rw [hget] at ht'
    by_cases hj : j = tokens.length
    · rw [if_pos hj, Option.some.injEq] at ht'
      subst ht'
      obtain ⟨t', hmem, hsame⟩ := List.any_eq_true.mp (hshares.symm.trans hshared)
      obtain ⟨i, hi⟩ := List.mem_iff_getElem?.mp hmem
      have hlt : i < tokens.length := (List.getElem?_eq_some_iff.mp hi).1
      simp only [Bool.and_eq_true, decide_eq_true_eq] at hsame
      exact ⟨i, t', by omega, by rw [hget, if_neg (Nat.ne_of_lt hlt), hi], hsame.1⟩
    · rw [if_neg hj] at ht'
      obtain ⟨i, t₀, hij, ht₀, heq⟩ := h.shares j t' ht' hshared
      have hlt : i < tokens.length := (List.getElem?_eq_some_iff.mp ht₀).1
      exact ⟨i, t₀, hij, by rw [hget, if_neg (Nat.ne_of_lt hlt), ht₀], heq⟩
  · intro ha i j t₀ t₁ ht₀ ht₁ hgoing₀ hgoing₁ heq
    obtain ⟨ha, hnone⟩ := hapart ha
    rw [hget] at ht₀ ht₁
    by_cases hi : i = tokens.length
    · rw [if_pos hi, Option.some.injEq] at ht₀
      subst ht₀
      by_cases hj : j = tokens.length
      · rw [hi, hj]
      · rw [if_neg hj] at ht₁
        exact absurd heq.symm (hfirst hnone j t₁ ht₁ hgoing₁)
    · rw [if_neg hi] at ht₀
      by_cases hj : j = tokens.length
      · rw [if_pos hj, Option.some.injEq] at ht₁
        subst ht₁
        exact absurd heq (hfirst hnone i t₀ ht₀ hgoing₀)
      · rw [if_neg hj] at ht₁
        exact h.apart ha i j t₀ t₁ ht₀ ht₁ hgoing₀ hgoing₁ heq
  · intro ha
    obtain ⟨ha, hnone⟩ := hapart ha
    have hl := h.listed ha
    -- nothing is pushed out of the table
    have hkept : s.pending.filter (·.1 ≠ t.id) = s.pending := by
      refine List.filter_eq_self.mpr fun e he => ?_
      obtain ⟨t', ht', hid', hlisted'⟩ := (hl.mem_iff e.1 e.2).mp he
      simp only [Token.listed, Bool.and_eq_true, Bool.not_eq_true'] at hlisted'
      simpa [← hid'] using hfirst hnone e.2 t' ht' hlisted'.1
    have hbelow : ∀ k ∈ s.pending.map Prod.snd, k < tokens.length := by
      intro k hk
      obtain ⟨e, he, rfl⟩ := List.mem_map.mp hk
      obtain ⟨t', ht', _⟩ := (hl.mem_iff e.1 e.2).mp he
      exact (List.getElem?_eq_some_iff.mp ht').1
    rw [hpending, hkept]
    constructor
    · rw [List.map_append, List.nodup_append]
      refine ⟨hl.nodup, by simp, fun k hk k' hk' => ?_⟩
      rw [List.map_singleton, List.mem_singleton] at hk'
      exact Nat.ne_of_lt (hk' ▸ hbelow k hk)
    · intro id k
      rw [List.mem_append, List.mem_singleton, hl.mem_iff, hget, Prod.mk.injEq]
      by_cases hk : k = tokens.length
      · subst hk
        simp only [List.getElem?_eq_none (le_refl _), reduceCtorEq, false_and, exists_false, false_or,
          and_true, if_true, Option.some.injEq, exists_eq_left', hlisted]
        exact eq_comm
      · simp [hk]

theorem delay (h : Agrees first tokens s) (hfirst : first ≤ 1) (ms : Nat)
    (hroom : tokens.length + 1 < twoTo 64) :
    Agrees first (Token.enter tokens (.delay ms) (Operation.answer s (.delay ms)))
      (s.delay ms).2 := by
  -- the counter has not started anew
  have hid : s.nextId = first + tokens.length := by
    rw [h.nextId]
    exact Nat.mod_eq_of_lt (by omega)
  have hanswer : Operation.answer s (.delay ms) = .issued (max (first + tokens.length) 1) := by
    simp [Operation.answer, Scheduler.delay, find?, hid]
  rw [hanswer]
  refine h.issue _ rfl rfl rfl rfl ?_ (Array.size_push _) (fun k => ?_) ?_
  · rfl
  · unfold Scheduler.marks find? Scheduler.delay
    rw [Array.getElem?_push, h.size]
    by_cases hk : k = tokens.length
    · simp [hk, hid]
    · rw [if_neg hk, if_neg hk]
  · unfold Scheduler.delay
    simp only [hid, h.size]

/-- One operation, whichever it is. -/
theorem step (h : Agrees first tokens s) (hfirst : first ≤ 1) (op : Operation)
    (hroom : op.isDelay = true → tokens.length + 1 < twoTo 64) :
    Agrees first (Token.enter tokens op (op.answer s)) (op.apply s) := by
  cases op with
  | delay ms => exact h.delay hfirst ms (hroom rfl)
  | advance ms =>
    have hclock : Quiet s (s.advance ms) := ⟨rfl, rfl, fun _ => rfl, rfl⟩
    exact h.quiet _ (fun _ _ => ⟨rfl, rfl, rfl, rfl⟩) (hclock.trans (Quiet.ring _))
  | await key =>
    show Agrees first (tokens.mapIdx (Token.revise (.await key) (.ended (s.start key).1.isSome)))
      (if (s.start key).1.isSome = true then (s.start key).2.release key else (s.start key).2)
    cases (s.start key).1.isSome with
    | true => exact (h.still (Quiet.start s key)).release key
    | false => exact h.quiet _ (fun _ _ => ⟨rfl, rfl, rfl, rfl⟩) (Quiet.start s key)
  | wake key =>
    show Agrees first (tokens.mapIdx (Token.revise (.wake key) (.ended (s.poll key).isSome)))
      (if (s.poll key).isSome = true then s.release key else s)
    cases (s.poll key).isSome with
    | true => exact h.release key
    | false => exact h.quiet _ (fun _ _ => ⟨rfl, rfl, rfl, rfl⟩) (Quiet.refl s)
  | cancel id => exact h.cancel id
  | cancelHandle key =>
    refine h.quiet _ (fun k t => ?_) (Quiet.cancelKey s key)
    show (if k = key then { t with cancelled := true } else t).id = t.id ∧ _
    by_cases hk : k = key
    · simp [Token.revise, hk]
    · simp [Token.revise, hk]
  | cancelAll => exact h.cancelAll
  | drop key => exact h.release key

/-- A whole run, by one operation after the other. -/
theorem run (h : Agrees first tokens s) (hfirst : first ≤ 1) (ops : List Operation)
    (hroom : tokens.length + ops.countP Operation.isDelay < twoTo 64) :
    Agrees first (tokensOf s tokens ops) (Scheduler.run s ops) ∧
      (tokensOf s tokens ops).length = tokens.length + ops.countP Operation.isDelay := by
  induction ops generalizing s tokens with
  | nil => exact ⟨h, rfl⟩
  | cons op rest ih =>
    rw [List.countP_cons] at hroom ⊢
    have hstep : op.isDelay = true → tokens.length + 1 < twoTo 64 := by
      intro hdelay
      rw [if_pos hdelay] at hroom
      omega
    have hlength : (Token.enter tokens op (op.answer s)).length =
        tokens.length + if op.isDelay = true then 1 else 0 := Token.length_enter tokens op s
    obtain ⟨hrest, hcount⟩ := ih (h.step hfirst op hstep) (by omega)
    exact ⟨hrest, by rw [tokensOf]; omega⟩

end Agrees

/-! ## Section 5: Pending means live -/

/-- The table is as long as there are tokens listed. -/
theorem Listed.length_eq {tokens : List Token} {pending : List (Nat × WaitKey)}
    (h : Listed tokens pending) : pending.length = tokens.countP Token.listed := by
  -- the keys of the table are the positions of the listed tokens
  have hpositions : ((tokens.zipIdx.filter fun e => e.1.listed).map Prod.snd).Nodup := by
    refine List.Nodup.sublist (List.filter_sublist.map _) ?_
    rw [List.zipIdx_map_snd]
    exact List.nodup_range'
  have hperm : (pending.map Prod.snd).Perm
      ((tokens.zipIdx.filter fun e => e.1.listed).map Prod.snd) := by
    refine (List.perm_ext_iff_of_nodup h.nodup hpositions).mpr fun k => ?_
    simp only [List.mem_map, List.mem_filter, List.mem_zipIdx_iff_getElem?]
    constructor
    · rintro ⟨e, he, rfl⟩
      obtain ⟨t, ht, _, hlisted⟩ := (h.mem_iff e.1 e.2).mp he
      exact ⟨(t, e.2), ⟨ht, hlisted⟩, rfl⟩
    · rintro ⟨⟨t, k⟩, ⟨ht, hlisted⟩, rfl⟩
      exact ⟨(t.id, k), (h.mem_iff t.id k).mpr ⟨t, ht, rfl, hlisted⟩, rfl⟩
  have hlength := hperm.length_eq
  rw [List.length_map, List.length_map, ← List.countP_eq_length_filter] at hlength
  rw [hlength, ← List.zipIdx_map_fst 0 tokens, List.countP_map]
  simp [Function.comp_def]

/-- Only the second token of a counter that started at 0 can share its id. -/
theorem Agrees.first_of_shares {first : Nat} {tokens : List Token} {s : Scheduler}
    (h : Agrees first tokens s) (k : Nat) (t : Token) (ht : tokens[k]? = some t)
    (hshares : t.shares = true) : first = 0 ∧ k = 1 := by
  have hid : ∀ (j : Nat) (t' : Token), tokens[j]? = some t' → t'.id = max (first + j) 1 := by
    intro j t' ht'
    have hlt : j < tokens.length := (List.getElem?_eq_some_iff.mp ht').1
    have hget := congrArg (fun ids : List Nat => ids[j]?) h.ids
    simp only [List.getElem?_map, ht', List.getElem?_range hlt, Option.map_some,
      Option.some.injEq] at hget
    exact hget
  obtain ⟨i, t', hik, ht', heq⟩ := h.shares k t ht hshares
  rw [hid i t' ht', hid k t ht] at heq
  omega

theorem Agrees.nodup_ids_iff {first : Nat} {tokens : List Token} {s : Scheduler}
    (h : Agrees first tokens s) (hfirst : first ≤ 1) :
    (tokens.map (·.id)).Nodup ↔ first = 1 ∨ tokens.length ≤ 1 := by
  rw [h.ids]
  constructor
  · intro hnodup
    by_contra hnot
    obtain ⟨hne, hlength⟩ := not_or.mp hnot
    have hinj := List.inj_on_of_nodup_map hnodup (x := 0) (y := 1) (by simp; omega) (by simp; omega)
    have hzero : first = 0 := by omega
    exact absurd (hinj (by simp [hzero])) (by decide)
  · intro hfew
    refine List.Nodup.map_on (fun i hi j hj heq => ?_) List.nodup_range
    rw [List.mem_range] at hi hj
    omega

/-- The values of the counter after the first one are distinct. -/
theorem Agrees.nodup_tail_ids {first : Nat} {tokens : List Token} {s : Scheduler}
    (h : Agrees first tokens s) : (tokens.map (·.id)).tail.Nodup := by
  rw [h.ids]
  cases tokens.length with
  | zero => exact List.nodup_nil
  | succ n =>
    rw [List.range_succ_eq_map, List.map_cons, List.tail_cons, List.map_map]
    refine List.nodup_range.map fun i j heq => ?_
    simp only [Function.comp_apply] at heq
    omega

/-- **Main theorem: pending means live.**  Take any operations with fewer than `2 ^ 64` delays
    on a scheduler whose counter starts at 1, or at 0.  One token is issued for each delay.
    The ids are distinct if the counter starts at 1; if it starts at 0 they are so from the second
    one on, which has the id of the first.

    If that did not happen while the first one was not over, the waits that are listed as
    pending are those that have neither ended, nor were dropped, nor were cancelled by their id
    or with all others.  If, besides, every token that was cancelled through its handle is over
    or was also cancelled otherwise, their number is that of the live tokens. -/
theorem size_of_run (first : Nat) (hfirst : first ≤ 1) (ops : List Operation)
    (hops : ops.countP Operation.isDelay < 2 ^ 64) :
    let start : Scheduler := { nextId := first }
    let tokens := tokensOf start [] ops
    let s := run start ops
    tokens.length = ops.countP Operation.isDelay ∧
      ((tokens.map (·.id)).Nodup ↔ first = 1 ∨ tokens.length ≤ 1) ∧
      (tokens.map (·.id)).tail.Nodup ∧
      (∀ (k : Nat) (t : Token), tokens[k]? = some t → t.shares = true → first = 0 ∧ k = 1) ∧
      (Apart tokens → s.size = tokens.countP Token.listed) ∧
      (Apart tokens → (∀ t ∈ tokens, t.cancelled = true → t.listed = false) →
        s.size = tokens.countP Token.live) := by
  intro start tokens s
  obtain ⟨h, hlength⟩ := (agrees_initial first hfirst).run hfirst ops
    (by rw [List.length_nil, Nat.zero_add]; exact hops)
  have hsize : Apart tokens → s.size = tokens.countP Token.listed :=
    fun ha => (h.listed ha).length_eq
  refine ⟨by simpa using hlength, h.nodup_ids_iff hfirst, h.nodup_tail_ids, h.first_of_shares,
    hsize, fun ha hcancelled => (hsize ha).trans (List.countP_congr fun t ht => ?_)⟩
  -- a token that is listed was not cancelled through its handle
  have hlive : t.live = (t.listed && !t.cancelled) := rfl
  rw [hlive, Bool.and_eq_true, Bool.not_eq_true']
  constructor
  · intro hlisted
    refine ⟨hlisted, ?_⟩
    by_contra hnot
    rw [hcancelled t ht (by simpa using hnot)] at hlisted
    cases hlisted
  · exact And.left

/-- Waits that end, are cancelled in every way, and one that stays. -/
theorem size_of_run_awaited :
    let ops : List Operation := [.delay 0, .delay 10, .delay 20, .delay 30, .await 0, .await 1,
      .cancelHandle 1, .wake 1, .cancel 3]
    let tokens := tokensOf {} [] ops
    1 ≤ 1 ∧ ops.countP Operation.isDelay < 2 ^ 64 ∧ (tokens.map (·.id)).Nodup ∧
      tokens.map (·.live) = [false, false, false, true] ∧ (run {} ops).size = 1 := by
  intro ops tokens
  obtain ⟨_, hnodup, _, _, _, hlive⟩ := size_of_run 1 (by decide) ops (by decide)
  exact ⟨by decide, by decide, hnodup.mpr (.inl rfl), by decide, hlive (by decide) (by decide)⟩

/-- A token that was cancelled through its handle is pending until somebody awaits or drops it.
    The first two tokens of a counter that starts at 0 have one id, and when the first one is
    dropped the second one is not pending any more. -/
theorem pending_not_live :
    (let ops : List Operation := [.delay 3600000, .cancelHandle 0];
      (run {} ops).size = 1 ∧ (tokensOf {} [] ops).countP Token.live = 0) ∧
    (let ops : List Operation := [.delay 1000, .delay 2000, .drop 0];
      (tokensOf { nextId := 0 } [] ops).map (·.id) = [1, 1] ∧
        (run { nextId := 0 } ops).size = 0 ∧
        (tokensOf { nextId := 0 } [] ops).countP Token.live = 1) := by
  decide

end Scheduler
end FlowGraph
