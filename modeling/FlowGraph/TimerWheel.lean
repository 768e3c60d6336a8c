import FlowGraph.Powers

/-! # Timer wheels

    Alarms, kept by the digits of their times to the base 64.

    * **Levels**: a slot of level `k` covers `64 ^ k` milliseconds, and the 64 slots of a
      level are one turn of it.  An alarm goes to the lowest level on which its time lies
      in the turn of the moment, or else to the top one.
    * **Expiries**: of the lowest level that has alarms, the slot that comes first on the
      way from the slot of the moment expires next.  Its alarms ring if their times have
      come, and are set anew on lower levels if not.

    Alarms may be more than one turn of the top level away, which is about two years.  Their
    slot expires in the turn in which the first of them is due.  Until then it may keep the
    alarms of other slots of the top level from ringing, as the slot of the moment stands
    before all others.

    Main statement: an expiry lies in the future (`now_lt_of_next?`), so turning the wheel
    ends. -/

namespace FlowGraph

/-- An alarm. -/
structure Alarm where
  /-- What it is the alarm of. -/
  key : Nat
  /-- When it rings. -/
  time : Nat
  /-- The level where it is kept. -/
  level : Nat
  deriving DecidableEq, Inhabited, Repr

/-- A moment and the alarms after it, oldest first. -/
structure TimerWheel where
  now : Nat := 0
  alarms : List Alarm := []
  deriving DecidableEq, Inhabited, Repr

namespace TimerWheel

/-! ## Levels and slots -/

/-- The slots of a level. -/
def slots : Nat := 64

/-- The top level. -/
def topLevel : Nat := 5

/-- The milliseconds that a slot of a level covers. -/
def span (level : Nat) : Nat := twoTo (6 * level)

theorem span_pos (level : Nat) : 0 < span level := Nat.pow_pos (by decide)

/-- The slot of a time on a level. -/
def slotOf (level time : Nat) : Nat := time / span level % slots

/-- The level at which an alarm is kept. -/
def levelFor (now time : Nat) : Nat :=
  ((List.range topLevel).find? fun k => now / span (k + 1) = time / span (k + 1)).getD topLevel

/-! ## Alarms -/

/-- Set an alarm. -/
def set (w : TimerWheel) (key time : Nat) : TimerWheel :=
  { w with alarms := w.alarms ++ [⟨key, time, levelFor w.now time⟩] }

/-- Take the alarms of a key off. -/
def cancel (w : TimerWheel) (key : Nat) : TimerWheel :=
  { w with alarms := w.alarms.filter (·.key ≠ key) }

/-! ## Expiries -/

/-- A slot that expires. -/
structure Expiry where
  level : Nat
  slot : Nat
  time : Nat
  deriving DecidableEq, Inhabited, Repr

/-- Whether an alarm is kept in the slot. -/
def Expiry.holds (e : Expiry) (a : Alarm) : Bool :=
  a.level = e.level && slotOf e.level a.time = e.slot

/-- When a slot of a level expires whose earliest alarm rings at `least`: in this turn, or in
    the next one if that is over, or in the turn of that alarm. -/
def expiryTime (now level slot least : Nat) : Nat :=
  let turn := span (level + 1)
  -- in the turn of the moment
  let time := now / turn * turn + slot * span level
  let time := if time ≤ now then time + turn else time
  -- whole turns pass in which nothing in the slot is due
  time + (least - time) / turn * turn

theorem lt_expiryTime (now level slot least : Nat) : now < expiryTime now level slot least := by
  have := Nat.lt_div_mul_add (a := now) (span_pos (level + 1))
  simp only [expiryTime]
  refine Nat.lt_of_lt_of_le ?_ (Nat.le_add_right _ _)
  split <;> omega

/-- The next expiry of a level, if it has alarms. -/
def nextOn (w : TimerWheel) (level : Nat) : Option Expiry :=
  let here := slotOf level w.now
  let kept := w.alarms.filter (·.level = level)
  -- the slots to go, once around at most
  let ways := kept.map fun a => (slotOf level a.time + slots - here) % slots
  ways.min?.map fun way =>
    let slot := (here + way) % slots
    let times := (kept.filter fun a => slotOf level a.time = slot).map (·.time)
    ⟨level, slot, expiryTime w.now level slot (times.min?.getD 0)⟩

/-- The next expiry. -/
def next? (w : TimerWheel) : Option Expiry :=
  (List.range (topLevel + 1)).findSome? w.nextOn

theorem now_lt_of_next? {w : TimerWheel} {e : Expiry} (h : w.next? = some e) : w.now < e.time := by
  obtain ⟨level, _, hl⟩ := List.exists_of_findSome?_eq_some h
  simp only [nextOn, Option.map_eq_some_iff] at hl
  obtain ⟨way, _, rfl⟩ := hl
  exact lt_expiryTime ..

/-- The keys that ring at an expiry, and the wheel after it. -/
def expire (w : TimerWheel) (e : Expiry) : List Nat × TimerWheel :=
  let (due, others) := w.alarms.partition e.holds
  -- on the lowest level a slot holds one time only; on others most alarms go further down
  let (rung, early) := due.partition (·.time ≤ e.time)
  (rung.map (·.key),
    { now := e.time
      alarms := others ++ early.map fun a => { a with level := levelFor e.time a.time } })

/-- Turn the wheel to a moment; the keys that rang before and on the way, in order. -/
def turnAfter (rung : List Nat) (w : TimerWheel) (time : Nat) : List Nat × TimerWheel :=
  match h : w.next? with
  | some e =>
    if reached : e.time ≤ time then
      have : time - (w.expire e).2.now < time - w.now := by
        have := now_lt_of_next? h
        simp only [expire]
        omega
      turnAfter (rung ++ (w.expire e).1) (w.expire e).2 time
    else (rung, { w with now := max w.now time })
  | none => (rung, { w with now := max w.now time })
termination_by time - w.now

/-- Turn the wheel to a moment; the keys that ring on the way, in order. -/
def turn (w : TimerWheel) (time : Nat) : List Nat × TimerWheel := turnAfter [] w time

end TimerWheel
end FlowGraph
