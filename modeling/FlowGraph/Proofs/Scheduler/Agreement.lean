import FlowGraph.Proofs.Scheduler.Lives
import FlowGraph.Proofs.TimerWheel

/-! # Waits agree with lives

    The marks of a wait, its alarm and its entry in the table of pending waits agree with the
    life of its token (`Follows`).  Each operation keeps that so (`Follows.step`).

    Alarms are kept by a wheel, which only rings them in time if they are not too far away.  So
    delays are to be no longer than all but one slot of the wheel's top level, which is
    about two years. -/

namespace FlowGraph
namespace Scheduler

/-! ## Section 1: Marks of waits -/

/-- Change a wait and say that it ended. -/
def markKey (f : Wait → Wait) (s : Scheduler) (key : WaitKey) : Scheduler :=
  { s with waits := s.waits.modify key f, woken := s.woken ++ [key] }

theorem find?_modify (s : Scheduler) (waits : Array Wait) (key k : WaitKey) (f : Wait → Wait)
    (hwaits : waits = s.waits.modify key f) :
    waits[k]? = if k = key then (s.find? k).map f else s.find? k := by
  rw [hwaits, Array.getElem?_modify]
  exact if_congr eq_comm rfl rfl

/-- Marking waits one after the other, when marking again changes nothing. -/
theorem foldl_markKey (f : Wait → Wait) (hf : ∀ w, f (f w) = f w) (keys : List WaitKey)
    (s : Scheduler) :
    (∀ k, (keys.foldl (markKey f) s).find? k
        = if k ∈ keys then (s.find? k).map f else s.find? k) ∧
      (keys.foldl (markKey f) s).woken = s.woken ++ keys ∧
      (keys.foldl (markKey f) s).wheel = s.wheel ∧ (keys.foldl (markKey f) s).now = s.now := by
  induction keys generalizing s with
  | nil => exact ⟨fun _ => rfl, (List.append_nil _).symm, rfl, rfl⟩
  | cons key rest ih =>
    obtain ⟨hfind, hwoken, hwheel, hnow⟩ := ih (s.markKey f key)
    refine ⟨fun k => ?_, ?_, hwheel, hnow⟩
    · have hfirst : (s.markKey f key).find? k
          = if k = key then (s.find? k).map f else s.find? k := find?_modify s _ key k f rfl
      rw [List.foldl_cons, hfind, hfirst]
      by_cases hk : k = key
      · rw [if_pos hk, if_pos (List.mem_cons.mpr (.inl hk)), Option.map_map,
          show f ∘ f = f from funext hf, ite_self]
      · rw [if_neg hk]
        exact if_congr (List.mem_cons.trans (or_iff_right hk)).symm rfl rfl
    · rw [List.foldl_cons, hwoken]
      exact List.append_assoc s.woken [key] rest

/-- When a wait is over, its marks stay, its alarms are taken off, and nobody is told. -/
theorem release_waits (s : Scheduler) (key : WaitKey) :
    (∀ k w, s.find? k = some w → ∃ released, (s.release key).find? k = some { w with released }) ∧
      (s.release key).woken = s.woken ∧ (s.release key).now = s.now ∧
      ((s.release key).wheel = s.wheel.cancel key ∨ (s.release key).wheel = s.wheel ∧
        ∀ w, s.find? key = some w → w.released = true) := by
  unfold release
  cases hkey : s.find? key with
  | none => exact ⟨fun k w hw => ⟨w.released, hw⟩, rfl, rfl, .inr ⟨rfl, fun w hw => by cases hw⟩⟩
  | some x =>
    dsimp only
    split
    · rename_i hreleased
      refine ⟨fun k w hw => ⟨w.released, hw⟩, rfl, rfl, .inr ⟨rfl, fun w hw => ?_⟩⟩
      rw [← Option.some.inj hw]
      exact hreleased
    · have hfind : ∀ (t : Scheduler) k w, t.waits = s.waits.modify key (fun w =>
          { w with released := true }) → s.find? k = some w →
          ∃ released, t.find? k = some { w with released } := by
        intro t k w hwaits hw
        unfold find?
        rw [find?_modify s t.waits key k _ hwaits, hw]
        split
        · exact ⟨true, rfl⟩
        · exact ⟨w.released, rfl⟩
      split
      · exact ⟨fun k w hw => hfind _ k w rfl hw, rfl, rfl, .inl rfl⟩
      · exact ⟨fun k w hw => hfind _ k w rfl hw, rfl, rfl, .inl rfl⟩

/-! ## Section 2: Agreement -/

/-- A life is changed by cancelling at most. -/
structure Life.Marks (l l' : Life) : Prop where
  due : l'.due = l.due
  now : l'.now = l.now
  awaited : l'.awaited = l.awaited
  gone : l'.gone = l.gone
  withdrawn : l'.withdrawn = true →
    l'.cancelled = true ∨ l.withdrawn = true ∧ l'.cancelled = l.cancelled

theorem Life.Marks.refl (l : Life) : l.Marks l := ⟨rfl, rfl, rfl, rfl, fun h => .inr ⟨h, rfl⟩⟩

theorem Life.marks_withdraw (l : Life) : l.Marks l.withdraw :=
  ⟨rfl, rfl, rfl, rfl, fun _ => .inl rfl⟩

/-- Only the lives that are meant are changed. -/
theorem Life.Marks.ite {l l' : Life} (h : l.Marks l') (p : Prop) [Decidable p] :
    l.Marks (if p then l' else l) := by
  split
  · exact h
  · exact .refl l

/-- What lives tell of tokens. -/
def Token.seen (t : Token) : Nat × Bool × Bool × Bool := (t.id, t.gone, t.withdrawn, t.shares)

/-- What was seen of a scheduler agrees with it. -/
structure Follows (tokens : List Token) (b : Ledger) (s : Scheduler) : Prop where
  agrees : Agrees 1 tokens s
  tokens : ∀ k : WaitKey, (tokens[k]?).map Token.seen
    = (b.lives[k]?).map fun l => (k + 1, l.gone, l.withdrawn, false)
  now : s.now = b.now
  turned : s.wheel.now = min s.now lastMoment
  sound : s.wheel.Sound
  lives : ∀ (k : WaitKey) l, b.lives[k]? = some l → l.now = s.now ∧ l.due ≤ lastMoment ∧
    l.due ≤ s.wheel.now + Operation.farthest ∧ (l.withdrawn = true → l.cancelled = true)
  waits : ∀ (k : WaitKey) l, b.lives[k]? = some l → ∃ w, s.find? k = some w ∧
    w.kind = .timer l.due ∧ (l.gone = false →
      w.cancelled = l.cancelled ∧ w.rung = (l.awaited && l.elapsed))
  /-- The alarms of waits that are awaited and whose time has not elapsed are set. -/
  alarms : ∀ (k : WaitKey) time, s.wheel.Sets k time ↔ ∃ l, b.lives[k]? = some l ∧
    l.awaited = true ∧ l.gone = false ∧ l.elapsed = false ∧ l.due = time
  /-- Somebody who awaits a wait that has ended is told so. -/
  woken : ∀ (k : WaitKey) l, b.lives[k]? = some l → l.awaited = true → l.gone = false →
    (l.cancelled || l.elapsed) = true → k ∈ s.woken

namespace Follows

variable {tokens : List Token} {b : Ledger} {s : Scheduler}

/-- The token of a life. -/
theorem token (h : Follows tokens b s) (k : WaitKey) (l : Life) (hl : b.lives[k]? = some l) :
    ∃ t, tokens[k]? = some t ∧ t.id = k + 1 ∧ t.gone = l.gone ∧ t.withdrawn = l.withdrawn ∧
      t.shares = false := by
  have ht := h.tokens k
  rw [hl, Option.map_some] at ht
  obtain ⟨t, ht, heq⟩ := Option.map_eq_some_iff.mp ht
  simp only [Token.seen, Prod.mk.injEq] at heq
  exact ⟨t, ht, heq⟩

theorem life (h : Follows tokens b s) (k : WaitKey) (t : Token) (ht : tokens[k]? = some t) :
    ∃ l, b.lives[k]? = some l ∧ t.id = k + 1 ∧ t.gone = l.gone ∧ t.withdrawn = l.withdrawn ∧
      t.shares = false := by
  have hl := h.tokens k
  rw [ht, Option.map_some] at hl
  obtain ⟨l, hl, heq⟩ := Option.map_eq_some_iff.mp hl.symm
  simp only [Token.seen, Prod.mk.injEq] at heq
  exact ⟨l, hl, heq.1.symm, heq.2.1.symm, heq.2.2.1.symm, heq.2.2.2.symm⟩

theorem apart (h : Follows tokens b s) : Apart tokens := by
  intro t ht
  obtain ⟨k, hk⟩ := List.mem_iff_getElem?.mp ht
  obtain ⟨_, _, _, _, _, hshares⟩ := h.life k t hk
  exact hshares

/-- The table of pending waits has the listed ones, with their ids. -/
theorem mem_pending_iff (h : Follows tokens b s) (id : Nat) (k : WaitKey) :
    (id, k) ∈ s.pending ↔ ∃ l, b.lives[k]? = some l ∧ id = k + 1 ∧ l.listed = true := by
  rw [(h.agrees.listed h.apart).mem_iff]
  constructor
  · rintro ⟨t, ht, rfl, hlisted⟩
    obtain ⟨l, hl, hid, hgone, hwithdrawn, _⟩ := h.life k t ht
    refine ⟨l, hl, hid, ?_⟩
    rw [Life.listed, ← hgone, ← hwithdrawn]
    exact hlisted
  · rintro ⟨l, hl, rfl, hlisted⟩
    obtain ⟨t, ht, hid, hgone, hwithdrawn, _⟩ := h.token k l hl
    refine ⟨t, ht, hid, ?_⟩
    rw [Token.listed, hgone, hwithdrawn]
    exact hlisted

/-- The wheel knows whether the time of a token has elapsed. -/
theorem elapsed_iff (h : Follows tokens b s) (k : WaitKey) (l : Life) (hl : b.lives[k]? = some l) :
    l.due ≤ s.wheel.now ↔ l.elapsed = true := by
  obtain ⟨hnow, hdue, _⟩ := h.lives k l hl
  rw [Life.elapsed, decide_eq_true_eq, h.turned, hnow]
  omega

/-- How awaiting a token begins. -/
theorem start_eq (h : Follows tokens b s) (k : WaitKey) (l : Life) (hl : b.lives[k]? = some l)
    (hgone : l.gone = false) :
    s.start k = if l.cancelled then (some (.error .cancelled), s)
      else if l.elapsed then (some (.ok ()), s)
      else (none, { s with wheel := s.wheel.set k l.due }) := by
  obtain ⟨w, hw, hkind, hmarks⟩ := h.waits k l hl
  obtain ⟨hcancelled, _⟩ := hmarks hgone
  unfold start
  rw [hw]
  simp only [hcancelled, hkind, h.elapsed_iff k l hl]

/-- If it was cancelled or its time has elapsed, then the wait has ended. -/
theorem start_ends (h : Follows tokens b s) (k : WaitKey) (l : Life) (hl : b.lives[k]? = some l)
    (hgone : l.gone = false) (hended : (l.cancelled || l.elapsed) = true) :
    ∃ result, s.start k = (some result, s) := by
  rw [h.start_eq k l hl hgone]
  cases hcancelled : l.cancelled with
  | true => exact ⟨_, rfl⟩
  | false =>
    rw [hcancelled, Bool.false_or] at hended
    rw [hended]
    exact ⟨_, rfl⟩

/-- What is found when a token that is awaited is looked at again. -/
theorem poll_eq (h : Follows tokens b s) (k : WaitKey) (l : Life) (hl : b.lives[k]? = some l)
    (hgone : l.gone = false) (hawaited : l.awaited = true) :
    s.poll k = if l.cancelled then some (.error .cancelled)
      else if l.elapsed then some (.ok ()) else none := by
  obtain ⟨w, hw, _, hmarks⟩ := h.waits k l hl
  obtain ⟨hcancelled, hrung⟩ := hmarks hgone
  rw [hawaited, Bool.true_and] at hrung
  unfold poll
  rw [hw]
  simp only [hcancelled, hrung]

theorem poll_ends (h : Follows tokens b s) (k : WaitKey) (l : Life) (hl : b.lives[k]? = some l)
    (hgone : l.gone = false) (hawaited : l.awaited = true)
    (hended : (l.cancelled || l.elapsed) = true) : ∃ result, s.poll k = some result := by
  rw [h.poll_eq k l hl hgone hawaited]
  cases hcancelled : l.cancelled with
  | true => exact ⟨_, rfl⟩
  | false =>
    rw [hcancelled, Bool.false_or] at hended
    rw [hended]
    exact ⟨_, rfl⟩

/-- Nothing happens to the clock, and the tokens that were not over are marked or not. -/
theorem revise (h : Follows tokens b s) {tokens' : List Token} {s' : Scheduler}
    (f : WaitKey → Life → Life) (hagrees : Agrees 1 tokens' s')
    (htokens : ∀ k : WaitKey, (tokens'[k]?).map Token.seen
      = (b.lives[k]?).map fun l => (k + 1, (f k l).gone, (f k l).withdrawn, false))
    (hnow : s'.now = s.now) (hturned : s'.wheel.now = s.wheel.now) (hsound : s'.wheel.Sound)
    (hkept : ∀ (k : WaitKey) l, b.lives[k]? = some l → (f k l).due = l.due ∧ (f k l).now = l.now ∧
      ((f k l).withdrawn = true → (f k l).cancelled = true ∨ l.withdrawn = true ∧
        (f k l).cancelled = l.cancelled))
    (hwaits : ∀ (k : WaitKey) l w, b.lives[k]? = some l → s.find? k = some w →
      ∃ w', s'.find? k = some w' ∧ w'.kind = w.kind ∧ ((f k l).gone = false → l.gone = false ∧
        (w.cancelled = l.cancelled → w'.cancelled = (f k l).cancelled) ∧
        (w.rung = (l.awaited && l.elapsed) → w'.rung = ((f k l).awaited && l.elapsed))))
    (halarms : ∀ (k : WaitKey) time, s'.wheel.Sets k time ↔ ∃ l, b.lives[k]? = some l ∧
      (f k l).awaited = true ∧ (f k l).gone = false ∧ l.elapsed = false ∧ l.due = time)
    (hwoken : ∀ (k : WaitKey) l, b.lives[k]? = some l → (f k l).awaited = true →
      (f k l).gone = false → ((f k l).cancelled || l.elapsed) = true → k ∈ s'.woken) :
    Follows tokens' { b with lives := b.lives.mapIdx f } s' := by
  have hget : ∀ k : Nat, (b.lives.mapIdx f)[k]? = (b.lives[k]?).map (f k) :=
    fun k => List.getElem?_mapIdx
  -- each life of now is `f k l` for a life of before
  have helapsed : ∀ (k : WaitKey) l, b.lives[k]? = some l → (f k l).elapsed = l.elapsed := by
    intro k l hl
    unfold Life.elapsed
    rw [(hkept k l hl).1, (hkept k l hl).2.1]
  refine ⟨hagrees, fun k => ?_, hnow.trans h.now, by rw [hturned, hnow, h.turned], hsound,
    fun k l' hl' => ?_, fun k l' hl' => ?_, fun k time => ?_, fun k l' hl' => ?_⟩
  · rw [htokens, hget, Option.map_map]
    rfl
  · obtain ⟨l, hl, rfl⟩ := Option.map_eq_some_iff.mp ((hget k).symm.trans hl')
    obtain ⟨hlnow, hdue, hfar, hwithdrawn⟩ := h.lives k l hl
    obtain ⟨hd, hn, hc⟩ := hkept k l hl
    rw [hd, hn, hnow, hturned]
    refine ⟨hlnow, hdue, hfar, fun hw => ?_⟩
    rcases hc hw with hcancelled | ⟨hold, heq⟩
    · exact hcancelled
    · rw [heq, hwithdrawn hold]
  · obtain ⟨l, hl, rfl⟩ := Option.map_eq_some_iff.mp ((hget k).symm.trans hl')
    obtain ⟨w, hw, hkind, hmarks⟩ := h.waits k l hl
    obtain ⟨w', hw', hkind', hmarks'⟩ := hwaits k l w hl hw
    refine ⟨w', hw', by rw [hkind', hkind, (hkept k l hl).1], fun hgone => ?_⟩
    obtain ⟨hbefore, hcancelled, hrung⟩ := hmarks' hgone
    rw [helapsed k l hl]
    exact ⟨hcancelled (hmarks hbefore).1, hrung (hmarks hbefore).2⟩
  · rw [halarms]
    constructor
    · rintro ⟨l, hl, hawaited, hgone, hbefore, hdue⟩
      exact ⟨f k l, by rw [hget, hl, Option.map_some], hawaited, hgone,
        (helapsed k l hl).trans hbefore, (hkept k l hl).1.trans hdue⟩
    · rintro ⟨l', hl', hawaited, hgone, hbefore, hdue⟩
      obtain ⟨l, hl, rfl⟩ := Option.map_eq_some_iff.mp ((hget k).symm.trans hl')
      exact ⟨l, hl, hawaited, hgone, (helapsed k l hl).symm.trans hbefore,
        (hkept k l hl).1.symm.trans hdue⟩
  · obtain ⟨l, hl, rfl⟩ := Option.map_eq_some_iff.mp ((hget k).symm.trans hl')
    rw [helapsed k l hl]
    exact hwoken k l hl

/-- When a wait is over, its alarm is taken off, and the clock of the wheel stays. -/
theorem release_wheel (h : Follows tokens b s) (key : WaitKey) :
    (s.release key).wheel.now = s.wheel.now ∧ (s.release key).wheel.Sound ∧
      ∀ k time, (s.release key).wheel.Sets k time ↔ s.wheel.Sets k time ∧ k ≠ key := by
  obtain ⟨_, _, _, heq | ⟨heq, hreleased⟩⟩ := s.release_waits key
  · rw [heq]
    exact ⟨rfl, h.sound.cancel key, fun k time => TimerWheel.sets_cancel _ _ _ _⟩
  · rw [heq]
    refine ⟨rfl, h.sound, fun k time => ?_⟩
    -- it was over before, so there was no alarm
    rw [iff_self_and]
    rintro hset rfl
    obtain ⟨l, hl, _, hgone, _⟩ := (h.alarms k time).mp hset
    obtain ⟨t, ht, _, htgone, _⟩ := h.token k l hl
    obtain ⟨w, hw, _⟩ := h.waits k l hl
    have hmarks := h.agrees.marks k
    rw [marks, hw, ht, Option.map_some, Option.map_some, Option.some.injEq, Prod.mk.injEq,
      Prod.mk.injEq, htgone, hgone, hreleased w hw] at hmarks
    cases hmarks.2.2

/-- A token is over: its wait has ended, or it was dropped. -/
theorem leave (h : Follows tokens b s) (key : WaitKey) {tokens' : List Token}
    (f : Life → Life) (hagrees : Agrees 1 tokens' (s.release key))
    (htokens : ∀ k : WaitKey, (tokens'[k]?).map Token.seen
      = (b.lives[k]?).map fun l =>
        (k + 1, if k = key then true else l.gone, l.withdrawn, false))
    (hf : ∀ l, b.lives[key]? = some l → (f l).due = l.due ∧ (f l).now = l.now ∧
      (f l).cancelled = l.cancelled ∧ (f l).withdrawn = l.withdrawn ∧ (f l).gone = true) :
    Follows tokens' { b with lives := b.lives.mapIdx fun k l => if k = key then f l else l }
      (s.release key) := by
  obtain ⟨hfind, hwoken, hnow, _⟩ := s.release_waits key
  obtain ⟨hturned, hsound, hsets⟩ := h.release_wheel key
  refine h.revise _ hagrees (fun k => ?_) hnow hturned hsound (fun k l hl => ?_)
    (fun k l w hl hw => ?_) (fun k time => ?_) (fun k l hl => ?_)
  · rw [htokens]
    refine Option.map_congr fun l hl => ?_
    by_cases hk : k = key
    · obtain ⟨_, _, _, hwithdrawn, hgone⟩ := hf l (hk ▸ hl)
      simp only [hk, if_true, hwithdrawn, hgone]
    · simp only [hk, if_false]
  · split
    · rename_i hk
      obtain ⟨hdue, hlnow, hcancelled, hwithdrawn, _⟩ := hf l (hk ▸ hl)
      exact ⟨hdue, hlnow, fun hw => .inr ⟨hwithdrawn ▸ hw, hcancelled⟩⟩
    · exact ⟨rfl, rfl, fun hw => .inr ⟨hw, rfl⟩⟩
  · obtain ⟨released, hw'⟩ := hfind k w hw
    refine ⟨_, hw', rfl, fun hgone => ?_⟩
    split at hgone
    · rename_i hk
      rw [(hf l (hk ▸ hl)).2.2.2.2] at hgone
      cases hgone
    · rename_i hk
      rw [if_neg hk]
      exact ⟨hgone, id, id⟩
  · rw [hsets, h.alarms]
    constructor
    · rintro ⟨⟨l, hl, hall⟩, hk⟩
      exact ⟨l, hl, by rwa [if_neg hk]⟩
    · rintro ⟨l, hl, hall⟩
      split at hall
      · rename_i hk
        rw [(hf l (hk ▸ hl)).2.2.2.2] at hall
        cases hall.2.1
      · rename_i hk
        exact ⟨⟨l, hl, hall⟩, hk⟩
  · rw [hwoken]
    split
    · rename_i hk
      intro _ hgone
      rw [(hf l (hk ▸ hl)).2.2.2.2] at hgone
      cases hgone
    · exact h.woken k l hl

/-- Some waits are cancelled. -/
theorem mark (h : Follows tokens b s) (keys : List WaitKey) {tokens' : List Token} {s' : Scheduler}
    (f : WaitKey → Life → Life) (hagrees : Agrees 1 tokens' s')
    (htokens : ∀ k : WaitKey, (tokens'[k]?).map Token.seen
      = (b.lives[k]?).map fun l => (k + 1, l.gone, (f k l).withdrawn, false))
    (hnow : s'.now = s.now) (hwheel : s'.wheel = s.wheel)
    (hfind : ∀ k, s'.find? k
      = if k ∈ keys then (s.find? k).map fun w => { w with cancelled := true } else s.find? k)
    (hwoken : s'.woken = s.woken ++ keys)
    (hf : ∀ (k : WaitKey) (l : Life), l.Marks (f k l))
    (hcancelled : ∀ (k : WaitKey) l, b.lives[k]? = some l → l.gone = false →
      ((f k l).cancelled = true ↔ l.cancelled = true ∨ k ∈ keys)) :
    Follows tokens' { b with lives := b.lives.mapIdx f } s' := by
  refine h.revise f hagrees (fun k => ?_) hnow (by rw [hwheel]) (hwheel ▸ h.sound)
    (fun k l _ => ⟨(hf k l).due, (hf k l).now, (hf k l).withdrawn⟩) (fun k l w hl hw => ?_)
    (fun k time => ?_) (fun k l hl hawaited hgone hended => ?_)
  · rw [htokens]
    exact congrArg (Option.map · _) (funext fun l => by rw [(hf k l).gone])
  · rw [hfind, hw, (hf k l).awaited, (hf k l).gone]
    split
    · rename_i hk
      refine ⟨_, rfl, rfl, fun hgone => ⟨hgone, fun _ => ?_, id⟩⟩
      exact ((hcancelled k l hl hgone).mpr (.inr hk)).symm
    · rename_i hk
      refine ⟨w, rfl, rfl, fun hgone => ⟨hgone, fun heq => ?_, id⟩⟩
      rw [heq, Bool.eq_iff_iff, hcancelled k l hl hgone, or_iff_left hk]
  · rw [hwheel, h.alarms]
    refine exists_congr fun l => and_congr_right fun _ => ?_
    rw [(hf k l).awaited, (hf k l).gone]
  · rw [(hf k l).awaited] at hawaited
    rw [(hf k l).gone] at hgone
    rw [hwoken, List.mem_append]
    rw [Bool.or_eq_true, hcancelled k l hl hgone] at hended
    rcases hended with (hbefore | hk) | helapsed
    · exact .inl (h.woken k l hl hawaited hgone (by rw [hbefore, Bool.true_or]))
    · exact .inr hk
    · exact .inl (h.woken k l hl hawaited hgone (by rw [helapsed, Bool.or_true]))

/-! ## Section 3: One operation -/

/-- What an operation does to the tokens is told by what was seen of them. -/
theorem tokens_revise (h : Follows tokens b s) (op : Operation) (answer : Answer)
    (g : WaitKey → Nat × Bool × Bool × Bool → Nat × Bool × Bool × Bool)
    (hg : ∀ k t, (Token.revise op answer k t).seen = g k t.seen) (k : WaitKey) :
    ((tokens.mapIdx (Token.revise op answer))[k]?).map Token.seen
      = (b.lives[k]?).map fun l => g k (k + 1, l.gone, l.withdrawn, false) := by
  rw [List.getElem?_mapIdx, Option.map_map]
  have heq : Token.seen ∘ Token.revise op answer k = g k ∘ Token.seen := funext fun t => hg k t
  rw [heq, ← Option.map_map, h.tokens, Option.map_map]
  rfl

/-- A token's wait ends as somebody looks at it, or it is dropped. -/
theorem tokens_leave (h : Follows tokens b s) (op : Operation) (answer : Answer) (key : WaitKey)
    (hrevise : ∀ k t, Token.revise op answer k t = if k = key then { t with gone := true } else t)
    (k : WaitKey) : ((tokens.mapIdx (Token.revise op answer))[k]?).map Token.seen
      = (b.lives[k]?).map fun l =>
        (k + 1, if k = key then true else l.gone, l.withdrawn, false) := by
  refine (h.tokens_revise op answer
    (fun k e => (e.1, if k = key then true else e.2.1, e.2.2)) (fun k t => ?_) k).trans rfl
  rw [hrevise]
  by_cases hk : k = key
  · simp [hk, Token.seen]
  · simp [hk, Token.seen]

theorem drop (h : Follows tokens b s) (key : WaitKey) :
    Follows (Token.enter tokens (.drop key) .none) (b.step (.drop key)) (s.release key) := by
  have hagrees := h.agrees.step (le_refl 1) (.drop key) (by simp [Operation.isDelay])
  exact h.leave key (fun l => { l with gone := true }) hagrees
    (h.tokens_leave (.drop key) .none key fun _ _ => rfl) fun l _ => ⟨rfl, rfl, rfl, rfl, rfl⟩

/-- A token that is awaited, or was, is looked at and is over. -/
theorem ended (h : Follows tokens b s) (op : Operation) (key : WaitKey)
    (hop : op = .await key ∨ op = .wake key) (hanswer : op.answer s = .ended true)
    (happly : op.apply s = s.release key)
    (hended : ∀ l, b.lives[key]? = some l → (l.cancelled || l.elapsed) = true) :
    Follows (Token.enter tokens op (op.answer s)) (b.step op) (op.apply s) := by
  have hagrees := h.agrees.step (le_refl 1) op (by
    rcases hop with rfl | rfl <;> simp [Operation.isDelay])
  rw [happly] at hagrees ⊢
  rw [hanswer] at hagrees ⊢
  have hleave := h.leave key Life.looked hagrees
    (h.tokens_leave op (.ended true) key fun _ _ => by rcases hop with rfl | rfl <;> rfl)
    fun l hl => ⟨rfl, rfl, rfl, rfl, by
      show (l.gone || l.cancelled || l.elapsed) = true
      rw [Bool.or_assoc, hended l hl, Bool.or_true]⟩
  rcases hop with rfl | rfl
  · exact hleave
  · exact hleave

theorem tokens_still (h : Follows tokens b s) (op : Operation) (answer : Answer)
    (hrevise : ∀ k t, (Token.revise op answer k t).seen = t.seen) (k : WaitKey) :
    ((tokens.mapIdx (Token.revise op answer))[k]?).map Token.seen
      = (b.lives[k]?).map fun l => (k + 1, l.gone, l.withdrawn, false) :=
  h.tokens_revise op answer (fun _ e => e) (fun k t => hrevise k t) k

/-- A token is awaited whose wait goes on: its alarm is set. -/
theorem await_sleeps (h : Follows tokens b s) (key : WaitKey) (l : Life)
    (hl : b.lives[key]? = some l) (hawaited : l.awaited = false) (hgone : l.gone = false)
    (hcancelled : l.cancelled = false) (helapsed : l.elapsed = false) :
    Follows (Token.enter tokens (.await key) (Operation.answer s (.await key)))
      (b.step (.await key)) (Operation.apply s (.await key)) := by
  have hstart : s.start key = (none, { s with wheel := s.wheel.set key l.due }) := by
    rw [h.start_eq key l hl hgone, hcancelled, helapsed]
    rfl
  have hagrees := h.agrees.step (le_refl 1) (.await key) (by simp [Operation.isDelay])
  have hanswer : Operation.answer s (.await key) = .ended false := by
    show Answer.ended (s.start key).1.isSome = _
    rw [hstart]
    rfl
  have happly : Operation.apply s (.await key) = { s with wheel := s.wheel.set key l.due } := by
    show (if (s.start key).1.isSome then (s.start key).2.release key else (s.start key).2) = _
    rw [hstart]
    rfl
  rw [hanswer, happly] at hagrees ⊢
  have hlooked := l.looked_of_going hgone hcancelled helapsed
  have hsame : ∀ l', b.lives[key]? = some l' → l' = l := fun l' hl' =>
    Option.some.inj (hl'.symm.trans hl)
  obtain ⟨_, _, hfar, _⟩ := h.lives key l hl
  have hlater : s.wheel.now < l.due := by
    rw [← not_le, h.elapsed_iff key l hl, helapsed]
    simp
  refine h.revise (fun k l => if k = key then l.looked else l) hagrees (fun k => ?_) rfl rfl
    (h.sound.set key l.due hlater ?_) (fun k l' hl' => ?_) (fun k l' w hl' hw => ?_)
    (fun k time => ?_) (fun k l' hl' => ?_)
  · refine (h.tokens_still (.await key) (.ended false) (fun _ _ => rfl) k).trans ?_
    refine Option.map_congr fun l' hl' => ?_
    split
    · rename_i hk
      rw [hsame l' (hk ▸ hl'), hlooked]
    · rfl
  · -- the slot of the alarm is not too far away
    have hpos := TimerWheel.span_pos TimerWheel.topLevel
    have hdiv := Nat.div_le_div_right (c := TimerWheel.span TimerWheel.topLevel) hfar
    rw [Operation.farthest, Nat.add_mul_div_right _ _ hpos] at hdiv
    unfold TimerWheel.slots at hdiv ⊢
    omega
  · split
    · exact ⟨rfl, rfl, fun hw => .inr ⟨hw, rfl⟩⟩
    · exact ⟨rfl, rfl, fun hw => .inr ⟨hw, rfl⟩⟩
  · refine ⟨w, hw, rfl, ?_⟩
    split
    · rename_i hk
      have heq := hsame l' (hk ▸ hl')
      rw [heq, hlooked]
      refine fun _ => ⟨hgone, id, fun hrung => ?_⟩
      rw [hrung, hawaited, helapsed]
      rfl
    · exact fun hgone => ⟨hgone, id, id⟩
  · show (s.wheel.set key l.due).Sets k time ↔ _
    rw [TimerWheel.sets_set, h.alarms]
    by_cases hk : k = key
    · subst hk
      simp only [if_true, hl, Option.some.injEq, exists_eq_left', hlooked, hawaited, hgone,
        helapsed, true_and, Bool.false_eq_true, false_and, false_or]
      exact eq_comm
    · simp only [hk, if_false, false_and, or_false]
  · split
    · rename_i hk
      rw [hsame l' (hk ▸ hl'), hlooked]
      intro _ _ hended
      simp only [hcancelled, helapsed, Bool.or_false] at hended
      cases hended
    · exact h.woken k l' hl'

/-- A token that is awaited is looked at, and its wait goes on. -/
theorem wake_sleeps (h : Follows tokens b s) (key : WaitKey) (l : Life)
    (hl : b.lives[key]? = some l) (hawaited : l.awaited = true) (hgone : l.gone = false)
    (hcancelled : l.cancelled = false) (helapsed : l.elapsed = false) :
    Follows (Token.enter tokens (.wake key) (Operation.answer s (.wake key)))
      (b.step (.wake key)) (Operation.apply s (.wake key)) := by
  have hpoll : s.poll key = none := by
    rw [h.poll_eq key l hl hgone hawaited, hcancelled, helapsed]
    rfl
  have hagrees := h.agrees.step (le_refl 1) (.wake key) (by simp [Operation.isDelay])
  have hanswer : Operation.answer s (.wake key) = .ended false := by
    show Answer.ended (s.poll key).isSome = _
    rw [hpoll]
    rfl
  have happly : Operation.apply s (.wake key) = s := by
    show (if (s.poll key).isSome then s.release key else s) = s
    rw [hpoll]
    rfl
  rw [hanswer, happly] at hagrees ⊢
  -- its life is the same
  have hsame : ∀ k l', b.lives[k]? = some l' → (if k = key then l'.looked else l') = l' := by
    intro k l' hl'
    split
    · rename_i hk
      have heq : l' = l := Option.some.inj ((hk ▸ hl').symm.trans hl)
      subst heq
      rw [l'.looked_of_going hgone hcancelled helapsed, ← hawaited]
    · rfl
  have hlives : (b.step (.wake key)) = b := by
    show Ledger.mk b.now (b.lives.mapIdx fun k l => if k = key then l.looked else l) = b
    have hmap : (b.lives.mapIdx fun k l => if k = key then l.looked else l) = b.lives := by
      refine List.ext_getElem? fun k => ?_
      rw [List.getElem?_mapIdx]
      cases hk : b.lives[k]? with
      | none => rfl
      | some l' => rw [Option.map_some, hsame k l' hk]
    rw [hmap]
  rw [hlives]
  exact { h with
    agrees := hagrees
    tokens := h.tokens_still (.wake key) (.ended false) fun _ _ => rfl }

theorem cancelHandle (h : Follows tokens b s) (key : WaitKey) :
    Follows (Token.enter tokens (.cancelHandle key) .none) (b.step (.cancelHandle key))
      (s.cancelKey key) := by
  have hagrees := h.agrees.step (le_refl 1) (.cancelHandle key) (by simp [Operation.isDelay])
  refine h.mark [key] (fun k l => if k = key then { l with cancelled := true } else l) hagrees
    (fun k => ?_) rfl rfl (fun k => ?_) rfl (fun k l => ?_) fun k l hl hgone => ?_
  · refine (h.tokens_still (.cancelHandle key) .none (fun k t => ?_) k).trans ?_
    · show (if k = key then { t with cancelled := true } else t).seen = t.seen
      split <;> rfl
    · refine Option.map_congr fun l _ => ?_
      split <;> rfl
  · simp only [List.mem_singleton]
    exact find?_modify s _ key k _ rfl
  · have hcancel : l.Marks { l with cancelled := true } := ⟨rfl, rfl, rfl, rfl, fun _ => .inl rfl⟩
    exact hcancel.ite _
  · rw [List.mem_singleton]
    split
    · rename_i hk
      exact iff_of_true rfl (.inr hk)
    · rename_i hk
      exact (or_iff_left hk).symm

theorem cancel (h : Follows tokens b s) (id : Nat) :
    Follows (Token.enter tokens (.cancel id) .none) (b.step (.cancel id)) (s.cancel id).2 := by
  have hagrees : Agrees 1 (Token.enter tokens (.cancel id) .none) (s.cancel id).2 :=
    h.agrees.step (le_refl 1) (.cancel id) (by simp [Operation.isDelay])
  have htokens : ∀ k : WaitKey,
      ((Token.enter tokens (.cancel id) .none)[k]?).map Token.seen = (b.lives[k]?).map fun l =>
        (k + 1, l.gone, (if id = k + 1 then l.withdraw else l).withdrawn, false) := by
    intro k
    refine (h.tokens_revise (.cancel id) .none
      (fun _ e => (e.1, e.2.1, if e.1 = id then true else e.2.2.1, e.2.2.2)) (fun k t => ?_)
      k).trans (Option.map_congr fun l _ => ?_)
    · show (if t.id = id then { t with withdrawn := true } else t).seen = _
      unfold Token.seen
      by_cases hid : t.id = id
      · simp [hid]
      · simp [hid]
    · by_cases hid : k + 1 = id
      · simp [hid, Life.withdraw]
      · simp [hid, Ne.symm hid]
  have hkept : ∀ (k : WaitKey) (l : Life), l.Marks (if id = k + 1 then l.withdraw else l) :=
    fun k l => l.marks_withdraw.ite _
  unfold Scheduler.cancel at hagrees ⊢
  cases hfind : s.pending.find? (·.1 = id) with
  | some e =>
    obtain ⟨id', key⟩ := e
    have hid : id' = id := by simpa using List.find?_some hfind
    subst hid
    obtain ⟨l, hl, rfl, _⟩ := (h.mem_pending_iff id' key).mp (List.mem_of_find?_eq_some hfind)
    rw [hfind] at hagrees
    refine h.mark [key] (fun k l => if key + 1 = k + 1 then l.withdraw else l) hagrees htokens rfl
      rfl (fun k => ?_) rfl hkept fun k l hl hgone => ?_
    · simp only [List.mem_singleton]
      exact find?_modify s _ key k _ rfl
    · rw [List.mem_singleton]
      split
      · rename_i hk
        exact iff_of_true rfl (.inr (Nat.succ.inj hk).symm)
      · rename_i hk
        exact (or_iff_left fun heq => hk (by rw [heq])).symm
  | none =>
    rw [hfind] at hagrees
    refine h.mark [] (fun k l => if id = k + 1 then l.withdraw else l) hagrees htokens rfl rfl
      (fun k => ?_) (List.append_nil _).symm hkept fun k l hl hgone => ?_
    · rw [if_neg List.not_mem_nil]
    · rw [or_iff_left List.not_mem_nil]
      split
      · -- it was cancelled before, or else it were pending
        rename_i hk
        refine iff_of_true rfl ((h.lives k l hl).2.2.2 ?_)
        by_contra hnot
        have hmem : (id, k) ∈ s.pending :=
          (h.mem_pending_iff id k).mpr ⟨l, hl, hk, by simp [Life.listed, hgone, hnot]⟩
        simpa using List.find?_eq_none.mp hfind _ hmem
      · rfl

theorem cancelAll (h : Follows tokens b s) :
    Follows (Token.enter tokens .cancelAll .none) (b.step .cancelAll) s.cancelAll.2 := by
  have hagrees := h.agrees.step (le_refl 1) .cancelAll (by simp [Operation.isDelay])
  obtain ⟨hfind, hwoken, hwheel, hnow⟩ :=
    foldl_markKey (fun w => { w with cancelled := true }) (fun _ => rfl) (s.pending.map Prod.snd) s
  rw [List.foldl_map] at hfind hwoken hwheel hnow
  refine h.mark (s.pending.map Prod.snd) (fun _ l => l.withdraw) hagrees (fun k => ?_) hnow hwheel
    hfind hwoken (fun k l => l.marks_withdraw) fun k l hl hgone => ?_
  · exact h.tokens_revise .cancelAll .none (fun _ e => (e.1, e.2.1, true, e.2.2.2))
      (fun _ _ => rfl) k
  · refine iff_of_true rfl ?_
    cases hwithdrawn : l.withdrawn with
    | true => exact .inl ((h.lives k l hl).2.2.2 hwithdrawn)
    | false =>
      have hmem : (k + 1, k) ∈ s.pending :=
        (h.mem_pending_iff (k + 1) k).mpr ⟨l, hl, rfl, by simp [Life.listed, hgone, hwithdrawn]⟩
      exact .inr (List.mem_map_of_mem hmem)

theorem length_eq (h : Follows tokens b s) : tokens.length = b.lives.length := by
  have hmap : tokens.map Token.seen
      = b.lives.mapIdx fun k l => (k + 1, l.gone, l.withdrawn, false) := by
    refine List.ext_getElem? fun k => ?_
    rw [List.getElem?_map, h.tokens, List.getElem?_mapIdx]
  simpa using congrArg List.length hmap

/-- The life of a token that was just issued is the last one. -/
theorem lives_delay (b : Ledger) (ms k : Nat) :
    (b.step (.delay ms)).lives[k]?
      = if k = b.lives.length then some (.issued b.now ms) else b.lives[k]? := by
  show (b.lives ++ [.issued b.now ms])[k]? = _
  split
  · rename_i hk
    rw [hk, List.getElem?_concat_length]
  · rename_i hk
    rw [List.getElem?_append]
    split
    · rfl
    · rw [List.getElem?_eq_none (by simp; omega), List.getElem?_eq_none (by omega)]

/-- Its id has not been used before, so it shares it with no token. -/
theorem enter_delay (h : Follows tokens b s) (ms : Nat) (hroom : tokens.length + 1 < twoTo 64) :
    ∃ t, Token.enter tokens (.delay ms) (Operation.answer s (.delay ms)) = tokens ++ [t] ∧
      t.seen = (b.lives.length + 1, false, false, false) := by
  have hid : s.nextId = tokens.length + 1 := by
    rw [h.agrees.nextId, Nat.add_comm 1]
    exact Nat.mod_eq_of_lt hroom
  have hanswer : Operation.answer s (.delay ms) = .issued (tokens.length + 1) := by
    simp [Operation.answer, Scheduler.delay, find?, hid]
  rw [hanswer]
  refine ⟨_, rfl, ?_⟩
  have hunshared : (tokens.any fun t => t.id = tokens.length + 1 && !t.gone) = false := by
    rw [List.any_eq_false]
    intro t ht
    obtain ⟨k, hk⟩ := List.mem_iff_getElem?.mp ht
    have hlt : k < tokens.length := (List.getElem?_eq_some_iff.mp hk).1
    obtain ⟨_, _, hid, _⟩ := h.life k t hk
    have hne : t.id ≠ tokens.length + 1 := by omega
    simp [hne]
  show (tokens.length + 1, false, false, _) = _
  rw [hunshared, h.length_eq]

/-- The wait of a token that was just issued is the last one. -/
theorem find?_delay (h : Follows tokens b s) (ms : Nat) (k : WaitKey) :
    (s.delay ms).2.find? k = if k = b.lives.length
      then some ⟨max s.nextId 1, .timer (min (s.now + ms) lastMoment), false, false, true, false⟩
      else s.find? k := by
  have hsize : s.waits.size = b.lives.length := h.agrees.size.trans h.length_eq
  unfold find? Scheduler.delay
  rw [Array.getElem?_push, hsize]

/-- A token is issued. -/
theorem delay (h : Follows tokens b s) (ms : Nat) (hnear : ms ≤ Operation.farthest)
    (hroom : tokens.length + 1 < twoTo 64) :
    Follows (Token.enter tokens (.delay ms) (Operation.answer s (.delay ms)))
      (b.step (.delay ms)) (s.delay ms).2 := by
  have hagrees := h.agrees.step (le_refl 1) (.delay ms) fun _ => hroom
  have hlength := h.length_eq
  obtain ⟨t, ht, hseen⟩ := h.enter_delay ms hroom
  have hget := lives_delay b ms
  have hnow := h.now
  have hturned := h.turned
  -- each clause for the new token, and for those of before
  refine ⟨hagrees, fun k => ?_, hnow, hturned, h.sound, fun k l hl => ?_, fun k l hl => ?_,
    fun k time => ?_, fun k l hl => ?_⟩
  · rw [ht, hget]
    split
    · rename_i hk
      rw [hk, ← hlength, List.getElem?_concat_length, Option.map_some, hseen, Option.map_some,
        hlength]
      rfl
    · rename_i hk
      rw [← h.tokens]
      have hk' : k ≠ tokens.length := by rwa [hlength]
      rcases Nat.lt_or_gt_of_ne hk' with hlt | hgt
      · rw [List.getElem?_append_left hlt]
      · rw [List.getElem?_eq_none (Nat.le_of_lt hgt), List.getElem?_eq_none (by simpa using hgt)]
  · rw [hget] at hl
    split at hl
    · obtain rfl := Option.some.inj hl
      refine ⟨hnow.symm, min_le_right _ _, ?_, fun hw => by cases hw⟩
      show min (b.now + ms) lastMoment ≤ s.wheel.now + _
      rw [hturned, ← hnow]
      omega
    · exact h.lives k l hl
  · rw [hget] at hl
    split at hl
    · rename_i hk
      obtain rfl := Option.some.inj hl
      refine ⟨_, (h.find?_delay ms k).trans (if_pos hk), ?_, fun _ => ⟨rfl, rfl⟩⟩
      rw [hnow]
      rfl
    · rename_i hk
      rw [h.find?_delay ms k, if_neg hk]
      exact h.waits k l hl
  · refine (h.alarms k time).trans (exists_congr fun l => ?_)
    rw [hget]
    split
    · rename_i hk
      rw [hk, List.getElem?_eq_none (le_refl _)]
      constructor
      · rintro ⟨hl, _⟩
        cases hl
      · rintro ⟨hl, hawaited, _⟩
        obtain rfl := Option.some.inj hl
        cases hawaited
    · rfl
  · rw [hget] at hl
    split at hl
    · obtain rfl := Option.some.inj hl
      intro hawaited
      cases hawaited
    · exact h.woken k l hl

/-- The time of a token has elapsed at the wheel's next moment, or has not. -/
theorem later_elapsed_iff (h : Follows tokens b s) (ms : Nat) (k : WaitKey) (l : Life)
    (hl : b.lives[k]? = some l) :
    (l.later ms).elapsed = true ↔ l.due ≤ min (s.now + ms) lastMoment := by
  obtain ⟨hnow, hdue, _⟩ := h.lives k l hl
  rw [Life.elapsed, decide_eq_true_eq]
  show l.due ≤ l.now + ms ↔ _
  omega

theorem later_elapsed (h : Follows tokens b s) (ms : Nat) (k : WaitKey) (l : Life)
    (hl : b.lives[k]? = some l) (helapsed : l.elapsed = true) : (l.later ms).elapsed = true := by
  have hdue := (h.elapsed_iff k l hl).mpr helapsed
  have hturned := h.turned
  rw [h.later_elapsed_iff ms k l hl]
  omega

/-- The alarms that ring are those of the waits that are awaited and whose time elapses. -/
theorem mem_turn_iff (h : Follows tokens b s) (ms : Nat) (k : WaitKey) (l : Life)
    (hl : b.lives[k]? = some l) :
    k ∈ (s.wheel.turn (min (s.now + ms) lastMoment)).1 ↔
      l.awaited = true ∧ l.gone = false ∧ l.elapsed = false ∧ (l.later ms).elapsed = true := by
  obtain ⟨_, _, hkeys, _⟩ := TimerWheel.turn_spec h.sound (min (s.now + ms) lastMoment)
  rw [hkeys, h.later_elapsed_iff ms k l hl]
  constructor
  · rintro ⟨time, hle, hset⟩
    obtain ⟨l', hl', hawaited, hgone, hbefore, rfl⟩ := (h.alarms k time).mp hset
    obtain rfl := Option.some.inj (hl.symm.trans hl')
    exact ⟨hawaited, hgone, hbefore, hle⟩
  · rintro ⟨hawaited, hgone, hbefore, hle⟩
    exact ⟨l.due, hle, (h.alarms k l.due).mpr ⟨l, hl, hawaited, hgone, hbefore, rfl⟩⟩

/-- Alarms are set afterwards if they were before and did not ring. -/
theorem sets_turn_iff (h : Follows tokens b s) (ms : Nat) (k : WaitKey) (time : Nat) :
    (s.wheel.turn (min (s.now + ms) lastMoment)).2.Sets k time ↔ ∃ l, b.lives[k]? = some l ∧
      l.awaited = true ∧ l.gone = false ∧ (l.later ms).elapsed = false ∧ l.due = time := by
  obtain ⟨_, _, _, hsets⟩ := TimerWheel.turn_spec h.sound (min (s.now + ms) lastMoment)
  rw [hsets, h.alarms]
  constructor
  · rintro ⟨⟨l, hl, hawaited, hgone, _, rfl⟩, hlt⟩
    refine ⟨l, hl, hawaited, hgone, ?_, rfl⟩
    rw [Bool.eq_false_iff, Ne, h.later_elapsed_iff ms k l hl]
    exact not_le.mpr hlt
  · rintro ⟨l, hl, hawaited, hgone, hlater, rfl⟩
    rw [Bool.eq_false_iff] at hlater
    refine ⟨⟨l, hl, hawaited, hgone, ?_, rfl⟩, ?_⟩
    · rw [Bool.eq_false_iff]
      exact fun hbefore => hlater (h.later_elapsed ms k l hl hbefore)
    · rwa [Ne, h.later_elapsed_iff ms k l hl, not_le] at hlater

/-- Waits are marked whose alarms rang, and nothing else is done to waits. -/
theorem ring_waits (s : Scheduler) (ms : Nat) :
    let turned := s.wheel.turn (min (s.now + ms) lastMoment)
    (∀ k, (s.advance ms).ring.find? k = if k ∈ turned.1
      then (s.find? k).map fun w => { w with rung := true } else s.find? k) ∧
    (s.advance ms).ring.woken = s.woken ++ turned.1 ∧
    (s.advance ms).ring.wheel = turned.2 ∧ (s.advance ms).ring.now = s.now + ms :=
  foldl_markKey (fun w => { w with rung := true }) (fun _ => rfl) _
    { (s.advance ms) with wheel := (s.wheel.turn (min (s.now + ms) lastMoment)).2 }

/-- Time goes on, and the alarms ring whose time has come. -/
theorem advance (h : Follows tokens b s) (ms : Nat) :
    Follows (Token.enter tokens (.advance ms) .none) (b.step (.advance ms))
      (s.advance ms).ring := by
  have hagrees : Agrees 1 (Token.enter tokens (.advance ms) .none) (s.advance ms).ring :=
    h.agrees.step (le_refl 1) (.advance ms) (by simp [Operation.isDelay])
  obtain ⟨hfind, hwoken, hwheel, hnow⟩ := ring_waits s ms
  obtain ⟨hsound, hturned, _, _⟩ := TimerWheel.turn_spec h.sound (min (s.now + ms) lastMoment)
  have hget : ∀ k : WaitKey, (b.step (.advance ms)).lives[k]?
      = (b.lives[k]?).map (Life.later ms) := fun k => List.getElem?_mapIdx
  have hold := h.turned
  have hclock := h.now
  refine ⟨hagrees, fun k => ?_, ?_, ?_, hwheel ▸ hsound, fun k l' hl' => ?_, fun k l' hl' => ?_,
    fun k time => ?_, fun k l' hl' => ?_⟩
  · refine (h.tokens_still (.advance ms) .none (fun _ _ => rfl) k).trans ?_
    rw [hget, Option.map_map]
    rfl
  · rw [hnow, hclock]
    rfl
  · rw [hwheel, hnow]
    omega
  · obtain ⟨l, hl, rfl⟩ := Option.map_eq_some_iff.mp ((hget k).symm.trans hl')
    obtain ⟨hlnow, hdue, hfar, hwithdrawn⟩ := h.lives k l hl
    rw [hwheel, hnow]
    refine ⟨congrArg (· + ms) hlnow, hdue, ?_, hwithdrawn⟩
    show l.due ≤ (s.wheel.turn _).2.now + _
    omega
  · obtain ⟨l, hl, rfl⟩ := Option.map_eq_some_iff.mp ((hget k).symm.trans hl')
    obtain ⟨w, hw, hkind, hmarks⟩ := h.waits k l hl
    rw [hfind, hw]
    split
    · -- its alarm rang
      rename_i hk
      obtain ⟨hawaited, _, _, helapsed⟩ := (h.mem_turn_iff ms k l hl).mp hk
      refine ⟨_, rfl, hkind, fun hgone => ⟨(hmarks hgone).1, ?_⟩⟩
      have hlooked : (l.later ms).awaited = true := hawaited
      rw [hlooked, helapsed]
      rfl
    · rename_i hk
      refine ⟨w, rfl, hkind, fun hgone => ⟨(hmarks hgone).1, (hmarks hgone).2.trans ?_⟩⟩
      rw [Bool.eq_iff_iff, Bool.and_eq_true, Bool.and_eq_true]
      refine and_congr_right fun hawaited =>
        ⟨h.later_elapsed ms k l hl, fun helapsed => ?_⟩
      by_contra hbefore
      exact hk ((h.mem_turn_iff ms k l hl).mpr ⟨hawaited, hgone, by simpa using hbefore, helapsed⟩)
  · rw [hwheel, h.sets_turn_iff]
    simp only [hget]
    constructor
    · rintro ⟨l, hl, hall⟩
      exact ⟨l.later ms, by rw [hl, Option.map_some], hall⟩
    · rintro ⟨l', hl', hall⟩
      obtain ⟨l, hl, rfl⟩ := Option.map_eq_some_iff.mp hl'
      exact ⟨l, hl, hall⟩
  · obtain ⟨l, hl, rfl⟩ := Option.map_eq_some_iff.mp ((hget k).symm.trans hl')
    intro hawaited hgone hended
    rw [hwoken, List.mem_append]
    cases hbefore : l.cancelled || l.elapsed with
    | true => exact .inl (h.woken k l hl hawaited hgone hbefore)
    | false =>
      rw [Bool.or_eq_false_iff] at hbefore
      have hcancelled : (l.later ms).cancelled = false := hbefore.1
      rw [hcancelled, Bool.false_or] at hended
      exact .inr ((h.mem_turn_iff ms k l hl).mpr ⟨hawaited, hgone, hbefore.2, hended⟩)

/-- The life of a token that an operation is on. -/
theorem exists_life (k : WaitKey) (p : Life → Bool) (h : (b.lives[k]?).any p = true) :
    ∃ l, b.lives[k]? = some l ∧ p l = true := by
  cases hl : b.lives[k]? with
  | none =>
    rw [hl] at h
    cases h
  | some l =>
    rw [hl] at h
    exact ⟨l, rfl, h⟩

/-- One operation, whichever it is. -/
theorem step (h : Follows tokens b s) (op : Operation)
    (hroom : op.isDelay = true → tokens.length + 1 < twoTo 64) (hnear : op.near = true)
    (hlegal : op.legal b = true) :
    Follows (Token.enter tokens op (op.answer s)) (b.step op) (op.apply s) := by
  cases op with
  | delay ms => exact h.delay ms (by simpa [Operation.near] using hnear) (hroom rfl)
  | advance ms => exact h.advance ms
  | await key =>
    obtain ⟨l, hl, hfresh⟩ := exists_life key _ hlegal
    simp only [Bool.and_eq_true, Bool.not_eq_true'] at hfresh
    cases hended : l.cancelled || l.elapsed with
    | false =>
      rw [Bool.or_eq_false_iff] at hended
      exact h.await_sleeps key l hl hfresh.1 hfresh.2 hended.1 hended.2
    | true =>
      obtain ⟨result, hresult⟩ := h.start_ends key l hl hfresh.2 hended
      refine h.ended (.await key) key (.inl rfl) ?_ ?_ fun l' hl' => ?_
      · show Answer.ended (s.start key).1.isSome = _
        rw [hresult]
        rfl
      · show (if (s.start key).1.isSome then (s.start key).2.release key else (s.start key).2) = _
        rw [hresult]
        rfl
      · rw [Option.some.inj (hl'.symm.trans hl), hended]
  | wake key =>
    obtain ⟨l, hl, hgoing⟩ := exists_life key _ hlegal
    simp only [Bool.and_eq_true, Bool.not_eq_true'] at hgoing
    cases hended : l.cancelled || l.elapsed with
    | false =>
      rw [Bool.or_eq_false_iff] at hended
      exact h.wake_sleeps key l hl hgoing.1 hgoing.2 hended.1 hended.2
    | true =>
      obtain ⟨result, hresult⟩ := h.poll_ends key l hl hgoing.2 hgoing.1 hended
      refine h.ended (.wake key) key (.inr rfl) ?_ ?_ fun l' hl' => ?_
      · show Answer.ended (s.poll key).isSome = _
        rw [hresult]
        rfl
      · show (if (s.poll key).isSome then s.release key else s) = _
        rw [hresult]
        rfl
      · rw [Option.some.inj (hl'.symm.trans hl), hended]
  | cancel id => exact h.cancel id
  | cancelHandle key => exact h.cancelHandle key
  | cancelAll => exact h.cancelAll
  | drop key => exact h.drop key

/-- A whole run, by one operation after the other. -/
theorem run (h : Follows tokens b s) (ops : List Operation)
    (hroom : tokens.length + ops.countP Operation.isDelay < twoTo 64)
    (hnear : ops.all Operation.near = true) (hlegal : legalRun b ops = true) :
    Follows (tokensOf s tokens ops) (ops.foldl Ledger.step b) (Scheduler.run s ops) := by
  induction ops generalizing tokens b s with
  | nil => exact h
  | cons op rest ih =>
    rw [List.countP_cons] at hroom
    rw [List.all_cons, Bool.and_eq_true] at hnear
    obtain ⟨hop, hrest⟩ := Bool.and_eq_true_iff.mp hlegal
    have hlength := Token.length_enter tokens op s
    refine ih (h.step op (fun hdelay => ?_) hnear.1 hop) (by omega) hnear.2 hrest
    rw [if_pos hdelay] at hroom
    omega

end Follows

end Scheduler
end FlowGraph
