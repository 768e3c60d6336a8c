import FlowGraph.TimerWheel
import Mathlib

/-! # Alarms ring in time

    Of alarms that are no more than one turn of the top level away, the wheel rings those
    whose time has come (`turn_spec`).

    * **Kept** alarms lie in the turn of their level, in a slot that comes after the one of
      the moment.  Setting an alarm and letting time go on keep them so.
    * **Opening**: the next expiry is the earliest start of a slot with an alarm
      (`next?_spec`).  Alarms on a lower level lie in the slot of the moment on the next one,
      so their slots start before those of that level.

    Nothing of this holds once an alarm is further away: its slot comes before others, but
    expires only in a later turn. -/

namespace FlowGraph
namespace TimerWheel

/-! ## Section 1: Spans -/

theorem span_succ (level : Nat) : span (level + 1) = span level * slots := by
  show 2 ^ (6 * (level + 1)) = 2 ^ (6 * level) * 64
  rw [Nat.mul_succ, Nat.pow_add]

theorem div_span_succ (time level : Nat) : time / span (level + 1) = time / span level / slots := by
  rw [span_succ, Nat.div_div_eq_div_mul]

/-- Moments in one slot of a level are in one slot of the levels above. -/
theorem div_span_congr {time time' level k : Nat} (hk : level ≤ k)
    (h : time / span level = time' / span level) : time / span k = time' / span k := by
  induction k, hk using Nat.le_induction with
  | base => exact h
  | succ k _ ih => rw [div_span_succ, div_span_succ, ih]

theorem lt_div_mul_span_iff (now time level : Nat) :
    now < time / span level * span level ↔ now / span level < time / span level :=
  (Nat.div_lt_iff_lt_mul (span_pos level)).symm

/-- The slot that starts the given number of slots after the start of time expires then, if
    it comes within one turn. -/
theorem expiryTime_eq (now level start least : Nat) (hlater : now / span level < start)
    (hnear : start < now / span level + slots) (hleast : least / span level = start) :
    expiryTime now level (start % slots) least = start * span level := by
  obtain ⟨here, hhere⟩ : ∃ here, here = now / span level := ⟨_, rfl⟩
  have hpos := span_pos level
  have hnow : here * span level ≤ now := hhere ▸ Nat.div_mul_le_self now (span level)
  have hopens : now < start * span level := (Nat.div_lt_iff_lt_mul hpos).mp hlater
  have hrest : least - start * span level < span level * slots := by
    rw [← hleast]
    have := Nat.lt_div_mul_add (a := least) hpos
    have : span level ≤ span level * slots := Nat.le_mul_of_pos_right _ (by decide)
    omega
  rw [← hhere] at hlater hnear
  unfold slots at hnear hrest ⊢
  unfold expiryTime
  simp only
  rw [div_span_succ, span_succ, ← hhere]
  unfold slots
  have hturn : here / 64 * (span level * 64) + start % 64 * span level
      = (here / 64 * 64 + start % 64) * span level := by ring
  rw [hturn]
  -- the slot is in the turn of the moment or in the next one
  obtain hsame | hnext : start / 64 = here / 64 ∨ start / 64 = here / 64 + 1 := by omega
  · have hslot : here / 64 * 64 + start % 64 = start := by omega
    rw [hslot, if_neg (by omega), Nat.div_eq_of_lt hrest, Nat.zero_mul, Nat.add_zero]
  · have hslot : here / 64 * 64 + start % 64 + 64 = start := by omega
    have hpast : (here / 64 * 64 + start % 64) * span level ≤ now :=
      (Nat.mul_le_mul_right _ (by omega)).trans hnow
    have hover : (here / 64 * 64 + start % 64) * span level + span level * 64
        = start * span level := by
      rw [Nat.mul_comm (span level) 64, ← Nat.add_mul, hslot]
    rw [if_pos hpast, hover, Nat.div_eq_of_lt hrest, Nat.zero_mul, Nat.add_zero]

/-! ## Section 2: Kept alarms -/

end TimerWheel

open TimerWheel

namespace Alarm

/-- When the slot of an alarm starts. -/
def opens (a : Alarm) : Nat := a.time / span a.level * span a.level

theorem opens_le (a : Alarm) : a.opens ≤ a.time := Nat.div_mul_le_self _ _

theorem opens_eq_iff {a b : Alarm} (hlevel : b.level = a.level) :
    b.opens = a.opens ↔ b.time / span a.level = a.time / span a.level := by
  unfold opens
  rw [hlevel]
  exact ⟨Nat.eq_of_mul_eq_mul_right (span_pos _), fun heq => by rw [heq]⟩

/-- The slot of an alarm comes after the one of the moment, in the same turn of its level.  On
    the top level it may be the next one. -/
structure Kept (now : Nat) (a : Alarm) : Prop where
  later : now < a.opens
  level : a.level ≤ topLevel
  turn : a.level < topLevel → now / span (a.level + 1) = a.time / span (a.level + 1)
  near : a.time / span topLevel < now / span topLevel + slots

variable {now now' : Nat} {a : Alarm}

/-- Alarms are kept as long as their slots have not started. -/
theorem Kept.mono (h : a.Kept now) (hle : now ≤ now') (hlater : now' < a.opens) :
    a.Kept now' := by
  refine ⟨hlater, h.level, fun hlevel => ?_, ?_⟩
  · have hfrom := Nat.div_le_div_right (c := span (a.level + 1)) hle
    have hto := Nat.div_le_div_right (c := span (a.level + 1)) (hlater.trans_le a.opens_le).le
    exact le_antisymm hto (h.turn hlevel ▸ hfrom)
  · exact h.near.trans_le (Nat.add_le_add_right (Nat.div_le_div_right hle) _)

/-- The slot of an alarm comes within one turn. -/
theorem Kept.ahead (h : a.Kept now) : now / span a.level < a.time / span a.level ∧
    a.time / span a.level < now / span a.level + slots := by
  refine ⟨(lt_div_mul_span_iff now a.time a.level).mp h.later, ?_⟩
  rcases h.level.lt_or_eq with hlevel | hlevel
  · have hturn := h.turn hlevel
    rw [div_span_succ, div_span_succ] at hturn
    unfold slots at hturn ⊢
    omega
  · rw [hlevel]
    exact h.near

/-- How far an alarm's slot is from the slot of the moment, once around at most. -/
theorem Kept.way (h : a.Kept now) :
    (slotOf a.level a.time + slots - slotOf a.level now) % slots
      = a.time / span a.level - now / span a.level := by
  have hahead := h.ahead
  unfold slotOf slots at *
  omega

/-- The slot that far from the slot of the moment is the alarm's. -/
theorem Kept.slot_of_way (h : a.Kept now) :
    (slotOf a.level now + (a.time / span a.level - now / span a.level)) % slots
      = slotOf a.level a.time := by
  have hahead := h.ahead
  unfold slotOf slots at *
  omega

/-- Alarms of a level are in one slot if their slots start at the same time, since those come
    within one turn. -/
theorem Kept.slot_eq_iff (h : a.Kept now) {b : Alarm} (hb : b.Kept now)
    (hlevel : b.level = a.level) :
    slotOf a.level b.time = slotOf a.level a.time ↔ b.opens = a.opens := by
  have hahead := h.ahead
  have hahead' := hb.ahead
  rw [hlevel] at hahead'
  rw [opens_eq_iff hlevel]
  unfold slotOf slots at *
  omega

/-- An alarm's slot expires when it starts, whichever of its alarms is the earliest. -/
theorem Kept.expiryTime_eq (h : a.Kept now) {b : Alarm} (hlevel : b.level = a.level)
    (hopens : b.opens = a.opens) :
    expiryTime now a.level (slotOf a.level a.time) b.time = a.opens :=
  TimerWheel.expiryTime_eq now a.level _ b.time h.ahead.1 h.ahead.2
    ((opens_eq_iff hlevel).mp hopens)

/-- Alarms of a level lie in the slot of the moment on the levels above. -/
theorem Kept.div_span (h : a.Kept now) {k : Nat} (hk : a.level < k) (htop : k ≤ topLevel) :
    now / span k = a.time / span k :=
  div_span_congr hk (h.turn (hk.trans_le htop))

end Alarm

namespace TimerWheel

theorem levelFor_spec (now time : Nat) (hne : now ≠ time) :
    levelFor now time ≤ topLevel ∧
      (levelFor now time < topLevel →
        now / span (levelFor now time + 1) = time / span (levelFor now time + 1)) ∧
      now / span (levelFor now time) ≠ time / span (levelFor now time) := by
  have hzero : now / span 0 ≠ time / span 0 := by
    show now / 1 ≠ time / 1
    rwa [Nat.div_one, Nat.div_one]
  -- on the levels below, the slots are other ones
  have hbelow : ∀ k, (∀ j < k, now / span (j + 1) ≠ time / span (j + 1)) →
      now / span k ≠ time / span k := by
    intro k hk
    cases k with
    | zero => exact hzero
    | succ j => exact hk j (Nat.lt_succ_self j)
  unfold levelFor
  cases hfind : (List.range topLevel).find? fun k => now / span (k + 1) = time / span (k + 1) with
  | none =>
    rw [List.find?_eq_none] at hfind
    refine ⟨le_refl _, fun h => absurd h (lt_irrefl _), hbelow _ fun j hj => ?_⟩
    simpa using hfind j (List.mem_range.mpr hj)
  | some k =>
    rw [List.find?_range_eq_some] at hfind
    obtain ⟨hsame, hk, hother⟩ := hfind
    refine ⟨(List.mem_range.mp hk).le, fun _ => by simpa using hsame, hbelow _ fun j hj => ?_⟩
    simpa using hother j hj

/-- An alarm that is set for later is kept. -/
theorem kept_levelFor (key now time : Nat) (hlater : now < time)
    (hnear : time / span topLevel < now / span topLevel + slots) :
    Alarm.Kept now ⟨key, time, levelFor now time⟩ := by
  obtain ⟨hlevel, hturn, hne⟩ := levelFor_spec now time hlater.ne
  refine ⟨?_, hlevel, hturn, hnear⟩
  exact (lt_div_mul_span_iff now time _).mpr
    (lt_of_le_of_ne (Nat.div_le_div_right hlater.le) hne)

/-- All alarms of a wheel are kept. -/
def Sound (w : TimerWheel) : Prop := ∀ a ∈ w.alarms, a.Kept w.now

/-- An alarm of a key is set. -/
def Sets (w : TimerWheel) (key time : Nat) : Prop := ∃ a ∈ w.alarms, a.key = key ∧ a.time = time

theorem sets_set (w : TimerWheel) (key time key' time' : Nat) :
    (w.set key time).Sets key' time' ↔ w.Sets key' time' ∨ key' = key ∧ time' = time := by
  unfold Sets set
  simp only [List.mem_append, List.mem_singleton, or_and_right, exists_or, exists_eq_left]
  rw [eq_comm (a := key), eq_comm (a := time)]

theorem sets_cancel (w : TimerWheel) (key key' time' : Nat) :
    (w.cancel key).Sets key' time' ↔ w.Sets key' time' ∧ key' ≠ key := by
  unfold Sets cancel
  simp only [List.mem_filter, decide_eq_true_eq]
  constructor
  · rintro ⟨a, ⟨ha, hne⟩, rfl, rfl⟩
    exact ⟨⟨a, ha, rfl, rfl⟩, hne⟩
  · rintro ⟨⟨a, ha, rfl, rfl⟩, hne⟩
    exact ⟨a, ⟨ha, hne⟩, rfl, rfl⟩

theorem Sound.set {w : TimerWheel} (h : w.Sound) (key time : Nat) (hlater : w.now < time)
    (hnear : time / span topLevel < w.now / span topLevel + slots) : (w.set key time).Sound := by
  intro a ha
  rcases List.mem_append.mp ha with hold | hnew
  · exact h a hold
  · rw [List.mem_singleton.mp hnew]
    exact kept_levelFor key w.now time hlater hnear

theorem Sound.cancel {w : TimerWheel} (h : w.Sound) (key : Nat) : (w.cancel key).Sound :=
  fun a ha => h a (List.mem_of_mem_filter ha)

/-! ## Section 3: The next expiry -/

variable {w : TimerWheel} (hw : w.Sound)

include hw

/-- The next expiry of a level is the earliest start of a slot with an alarm, and its slot holds
    the alarms whose slots start then. -/
theorem nextOn_spec (level : Nat) (e : Expiry) (he : w.nextOn level = some e) :
    e.level = level ∧ (∃ a ∈ w.alarms, a.level = level ∧ a.opens = e.time) ∧
      ∀ a ∈ w.alarms, a.level = level →
        e.time ≤ a.opens ∧ (e.holds a = true ↔ a.opens = e.time) := by
  obtain ⟨kept, hkept⟩ : ∃ kept, kept = w.alarms.filter (·.level = level) := ⟨_, rfl⟩
  have hmem : ∀ a, a ∈ kept ↔ a ∈ w.alarms ∧ a.level = level := by
    intro a
    rw [hkept, List.mem_filter, decide_eq_true_eq]
  have hway : ∀ a ∈ kept, (slotOf level a.time + slots - slotOf level w.now) % slots
      = a.time / span level - w.now / span level := by
    intro a ha
    obtain ⟨ha, rfl⟩ := (hmem a).mp ha
    exact (hw a ha).way
  unfold nextOn at he
  simp only [← hkept] at he
  obtain ⟨way, hmin, rfl⟩ := Option.map_eq_some_iff.mp he
  rw [List.map_congr_left hway, List.min?_eq_some_iff] at hmin
  obtain ⟨hmap, hleast⟩ := hmin
  obtain ⟨first, hfirst, rfl⟩ := List.mem_map.mp hmap
  obtain ⟨hin, rfl⟩ := (hmem first).mp hfirst
  have hheld : ∀ a ∈ kept, slotOf first.level a.time = slotOf first.level first.time ↔
      a.opens = first.opens := fun a ha =>
    (hw first hin).slot_eq_iff (hw a ((hmem a).mp ha).1) ((hmem a).mp ha).2
  rw [(hw first hin).slot_of_way]
  -- the earliest alarm of the slot tells the turn in which the slot expires
  obtain ⟨least, hle⟩ : ∃ least, ((kept.filter fun a =>
      slotOf first.level a.time = slotOf first.level first.time).map (·.time)).min?
        = some least := by
    refine Option.ne_none_iff_exists'.mp fun hnone => ?_
    rw [List.min?_eq_none_iff, List.map_eq_nil_iff, List.filter_eq_nil_iff] at hnone
    exact hnone first hfirst (by simp)
  rw [hle, Option.getD_some]
  rw [List.min?_eq_some_iff] at hle
  obtain ⟨held, hslots, rfl⟩ := List.mem_map.mp hle.1
  rw [List.mem_filter, decide_eq_true_eq, hheld held hslots.1] at hslots
  rw [(hw first hin).expiryTime_eq ((hmem held).mp hslots.1).2 hslots.2]
  refine ⟨rfl, ⟨first, hin, rfl, rfl⟩, fun a ha hlevel => ?_⟩
  have hkept : a ∈ kept := (hmem a).mpr ⟨ha, hlevel⟩
  refine ⟨?_, ?_⟩
  · have hdistance := hleast _ (List.mem_map_of_mem hkept)
    have hahead := (hw first hin).ahead
    have hahead' := (hw a ha).ahead
    rw [hlevel] at hahead'
    unfold Alarm.opens
    rw [hlevel]
    exact Nat.mul_le_mul_right _ (by omega)
  · unfold Expiry.holds
    simp only [Bool.and_eq_true, decide_eq_true_eq, hlevel, true_and]
    exact hheld a hkept

omit hw in
theorem nextOn_eq_none (level : Nat) (h : w.nextOn level = none) :
    ∀ a ∈ w.alarms, a.level ≠ level := by
  unfold nextOn at h
  rw [Option.map_eq_none_iff, List.min?_eq_none_iff, List.map_eq_nil_iff,
    List.filter_eq_nil_iff] at h
  intro a ha hlevel
  exact h a ha (by simpa using hlevel)

/-- The next expiry is the earliest start of a slot with an alarm. -/
theorem next?_spec (e : Expiry) (he : w.next? = some e) :
    (∃ a ∈ w.alarms, a.opens = e.time) ∧
      ∀ a ∈ w.alarms, e.time ≤ a.opens ∧ (e.holds a = true ↔ a.opens = e.time) := by
  unfold next? at he
  rw [List.findSome?_eq_some_iff] at he
  obtain ⟨lower, level, upper, hsplit, hon, hnone⟩ := he
  obtain ⟨hlevel, ⟨first, hfirst, hin, hopens⟩, hall⟩ := nextOn_spec hw level e hon
  have hlowest : ∀ a ∈ w.alarms, level ≤ a.level := by
    intro a ha
    by_contra hlt
    have hmem : a.level ∈ List.range (topLevel + 1) :=
      List.mem_range.mpr (Nat.lt_succ_of_le (hw a ha).level)
    have hsorted := List.pairwise_lt_range (n := topLevel + 1)
    rw [hsplit] at hmem hsorted
    rcases List.mem_append.mp hmem with hlower | hupper
    · exact nextOn_eq_none a.level (hnone _ hlower) a ha rfl
    · have hle := (List.pairwise_append.mp hsorted).2.1
      rcases List.mem_cons.mp hupper with heq | hupper
      · omega
      · have := List.rel_of_pairwise_cons hle hupper
        omega
  refine ⟨⟨first, hfirst, hopens⟩, fun a ha => ?_⟩
  rcases (hlowest a ha).eq_or_lt with hsame | hhigher
  · exact hall a ha hsame.symm
  · -- the slot of an alarm on a higher level starts after the one that the moment is in
    have hhere := (hw first hfirst).div_span (hin ▸ hhigher) (hw a ha).level
    have hlt : first.time < a.opens := by
      rw [Alarm.opens, lt_div_mul_span_iff, ← hhere]
      exact (hw a ha).ahead.1
    have hbefore : e.time < a.opens := (hopens ▸ first.opens_le).trans_lt hlt
    refine ⟨hbefore.le, fun hholds => ?_, fun heq => absurd heq hbefore.ne'⟩
    unfold Expiry.holds at hholds
    rw [Bool.and_eq_true, decide_eq_true_eq, hlevel] at hholds
    exact absurd hholds.1 hhigher.ne'

theorem alarms_of_next?_eq_none (h : w.next? = none) : w.alarms = [] := by
  unfold next? at h
  rw [List.findSome?_eq_none_iff] at h
  refine List.eq_nil_iff_forall_not_mem.mpr fun a ha => ?_
  have hmem := List.mem_range.mpr (Nat.lt_succ_of_le (hw a ha).level)
  exact nextOn_eq_none a.level (h _ hmem) a ha rfl

/-! ## Section 4: Turning the wheel -/

/-- Time goes on until the next expiry, at most. -/
theorem Sound.later (time : Nat) (hlater : w.now ≤ time)
    (hbefore : ∀ a ∈ w.alarms, time < a.opens) : Sound { w with now := time } :=
  fun a ha => (hw a ha).mono hlater (hbefore a ha)

/-- At an expiry the alarms ring whose time has come, and the others stay set. -/
theorem expire_spec (e : Expiry) (he : w.next? = some e) :
    (w.expire e).2.Sound ∧ (w.expire e).2.now = e.time ∧
      (∀ key, key ∈ (w.expire e).1 ↔ ∃ time ≤ e.time, w.Sets key time) ∧
      ∀ key time, (w.expire e).2.Sets key time ↔ w.Sets key time ∧ e.time < time := by
  obtain ⟨_, hall⟩ := next?_spec hw e he
  have hlater := now_lt_of_next? he
  -- an alarm whose time has come is held by the slot
  have hdue : ∀ a ∈ w.alarms, a.time ≤ e.time → e.holds a = true :=
    fun a ha hle => (hall a ha).2.mpr (le_antisymm (a.opens_le.trans hle) (hall a ha).1)
  unfold expire
  simp only [List.partition_eq_filter_filter]
  refine ⟨?_, trivial, fun key => ?_, fun key time => ?_⟩
  · intro a ha
    -- the alarms of other slots stay where they are, and early ones are set anew
    rcases List.mem_append.mp ha with hother | hearly
    · obtain ⟨ha, hnot⟩ := List.mem_filter.mp hother
      refine (hw a ha).mono hlater.le (lt_of_le_of_ne (hall a ha).1 fun heq => ?_)
      simp only [Function.comp_apply, (hall a ha).2.mpr heq.symm, Bool.not_true] at hnot
      cases hnot
    · obtain ⟨b, hb, rfl⟩ := List.mem_map.mp hearly
      simp only [List.mem_filter, Function.comp_apply, Bool.not_eq_true', decide_eq_false_iff_not,
        not_le] at hb
      refine kept_levelFor b.key e.time b.time hb.2 ?_
      exact (hw b hb.1.1).near.trans_le (Nat.add_le_add_right (Nat.div_le_div_right hlater.le) _)
  · simp only [List.mem_map, List.mem_filter, decide_eq_true_eq, Sets]
    constructor
    · rintro ⟨a, ⟨⟨ha, _⟩, hle⟩, rfl⟩
      exact ⟨a.time, hle, a, ha, rfl, rfl⟩
    · rintro ⟨_, hle, a, ha, rfl, rfl⟩
      exact ⟨a, ⟨⟨ha, hdue a ha hle⟩, hle⟩, rfl⟩
  · simp only [Sets, List.mem_append, List.mem_map, List.mem_filter, Function.comp_apply,
      Bool.not_eq_true', decide_eq_false_iff_not, not_le]
    constructor
    · rintro ⟨_, ⟨ha, hnot⟩ | ⟨b, ⟨⟨hb, _⟩, hlt⟩, rfl⟩, rfl, rfl⟩
      · refine ⟨⟨_, ha, rfl, rfl⟩, ?_⟩
        by_contra hle
        rw [hdue _ ha (not_lt.mp hle)] at hnot
        cases hnot
      · exact ⟨⟨b, hb, rfl, rfl⟩, hlt⟩
    · rintro ⟨⟨a, ha, rfl, rfl⟩, hlt⟩
      cases hholds : e.holds a with
      | false => exact ⟨a, .inl ⟨ha, hholds⟩, rfl, rfl⟩
      | true => exact ⟨_, .inr ⟨a, ⟨⟨ha, hholds⟩, hlt⟩, rfl⟩, rfl, rfl⟩

/-- If no slot starts until a moment, no alarm is due until then. -/
theorem rest_spec (rung : List Nat) (time : Nat) (hbefore : ∀ a ∈ w.alarms, time < a.opens) :
    Sound { w with now := max w.now time } ∧
      (∀ key, key ∈ rung ↔ key ∈ rung ∨ ∃ t ≤ time, w.Sets key t) ∧
      ∀ key t, Sets { w with now := max w.now time } key t ↔ w.Sets key t ∧ time < t := by
  have hnone : ∀ key t, w.Sets key t → time < t := by
    rintro _ _ ⟨a, ha, rfl, rfl⟩
    exact (hbefore a ha).trans_le a.opens_le
  refine ⟨hw.later _ (le_max_left _ _) fun a ha => max_lt (hw a ha).later (hbefore a ha),
    fun key => ⟨.inl, ?_⟩, fun key t => ⟨fun h => ⟨h, hnone key t h⟩, And.left⟩⟩
  rintro (hold | ⟨t, hle, hsets⟩)
  · exact hold
  · exact absurd (hnone key t hsets) (not_lt.mpr hle)

omit hw in
theorem turnAfter_spec (rung : List Nat) (w : TimerWheel) (time : Nat) (hw : w.Sound) :
    (turnAfter rung w time).2.Sound ∧ (turnAfter rung w time).2.now = max w.now time ∧
      (∀ key, key ∈ (turnAfter rung w time).1 ↔ key ∈ rung ∨ ∃ t ≤ time, w.Sets key t) ∧
      ∀ key t, (turnAfter rung w time).2.Sets key t ↔ w.Sets key t ∧ time < t := by
  fun_induction turnAfter rung w time with
  | case1 rung w e hnext hreached _ ih =>
    obtain ⟨hsound, hnow, hkeys, hsets⟩ := expire_spec hw e hnext
    obtain ⟨hsound', hnow', hkeys', hsets'⟩ := ih hsound
    have hlater := now_lt_of_next? hnext
    refine ⟨hsound', by rw [hnow', hnow]; omega, fun key => ?_, fun key t => ?_⟩
    · rw [hkeys', List.mem_append, or_assoc, hkeys]
      refine or_congr_right ?_
      constructor
      · rintro (⟨t, hle, ht⟩ | ⟨t, hle, ht⟩)
        · exact ⟨t, hle.trans hreached, ht⟩
        · exact ⟨t, hle, ((hsets key t).mp ht).1⟩
      · rintro ⟨t, hle, ht⟩
        rcases le_or_gt t e.time with hrung | hearly
        · exact .inl ⟨t, hrung, ht⟩
        · exact .inr ⟨t, hle, (hsets key t).mpr ⟨ht, hearly⟩⟩
    · rw [hsets', hsets, and_assoc]
      exact and_congr_right fun _ => ⟨And.right, fun hlt => ⟨hreached.trans_lt hlt, hlt⟩⟩
  | case2 rung w e hnext hnot =>
    obtain ⟨_, hall⟩ := next?_spec hw e hnext
    obtain ⟨hsound, hkeys, hsets⟩ := rest_spec hw rung time fun a ha =>
      (not_le.mp hnot).trans_le (hall a ha).1
    exact ⟨hsound, rfl, hkeys, hsets⟩
  | case3 rung w hnext =>
    obtain ⟨hsound, hkeys, hsets⟩ := rest_spec hw rung time fun a ha => by
      rw [alarms_of_next?_eq_none hw hnext] at ha
      cases ha
    exact ⟨hsound, rfl, hkeys, hsets⟩

/-- **Main theorem: alarms ring in time.**  Turning the wheel to a moment rings the alarms up to
    that moment and leaves the others set. -/
theorem turn_spec (time : Nat) :
    (w.turn time).2.Sound ∧ (w.turn time).2.now = max w.now time ∧
      (∀ key, key ∈ (w.turn time).1 ↔ ∃ t ≤ time, w.Sets key t) ∧
      ∀ key t, (w.turn time).2.Sets key t ↔ w.Sets key t ∧ time < t := by
  obtain ⟨hsound, hnow, hkeys, hsets⟩ := turnAfter_spec [] w time hw
  exact ⟨hsound, hnow, fun key => (hkeys key).trans (or_iff_right List.not_mem_nil), hsets⟩

end TimerWheel
end FlowGraph
