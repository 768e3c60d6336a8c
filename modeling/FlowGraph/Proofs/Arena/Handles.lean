import FlowGraph.Proofs.Arena

/-! # Handles over time

    Over a run of operations an arena is a map from handles to items.  An observer who sees
    the operations and their answers, and nothing of slots and generations, knows what each
    handle finds (`contents`), which handles were issued (`issued`), and which of them were
    taken back (`removed`).

    The proof goes by the generations.  That of a slot is the number of handles of the slot
    that were taken back, so it does not run out in fewer than `2 ^ 32` operations, and a
    handle that was taken back is older than its slot for good (`Arena.Old`).

    Main statement: `handles_of_run`. -/

namespace FlowGraph

namespace Arena

variable {α : Type}

/-! ## Section 1: Generations -/

/-- How often a slot was freed, if there is one at a position. -/
def generation? (a : Arena α) (i : Nat) : Option UInt32 := (a.slots[i]?).map (·.generation)

/-- The slot of the handle was freed since the handle was issued. -/
def Old (a : Arena α) (h : NodeHandle) : Prop :=
  ∃ g, a.generation? h.index = some g ∧ h.generation.toNat < g.toNat

/-- A handle that finds an item has the generation of its slot. -/
theorem generation?_of_get? (a : Arena α) (h : NodeHandle) (x : α) (hx : a.get? h = some x) :
    a.generation? h.index = some h.generation := by
  rw [get?_eq_some_iff] at hx
  simp [generation?, hx]

theorem not_old_of_get? (a : Arena α) (h : NodeHandle) (x : α) (hx : a.get? h = some x) :
    ¬ a.Old h := by
  rintro ⟨g, hg, hlt⟩
  rw [a.generation?_of_get? h x hx, Option.some.injEq] at hg
  rw [hg] at hlt
  exact lt_irrefl _ hlt

theorem generation?_modify (a : Arena α) (h : NodeHandle) (f : α → α) (i : Nat) :
    (a.modify h f).generation? i = a.generation? i := by
  unfold modify
  cases hx : a.get? h with
  | none => rfl
  | some x =>
    have hg := a.generation?_of_get? h x hx
    unfold generation? at hg ⊢
    by_cases hi : h.index = i
    · subst hi
      obtain ⟨slot, hslot, _⟩ := Option.map_eq_some_iff.mp hg
      rw [hg]
      simp [(Array.getElem?_eq_some_iff.mp hslot).1]
    · simp [hi]

theorem generation?_mapWithHandle (a : Arena α) (f : NodeHandle → α → α) (i : Nat) :
    (a.mapWithHandle f).generation? i = a.generation? i := by
  simp [generation?, mapWithHandle, Function.comp_def]

/-- A new handle has the generation of its slot, which is new or was as old before. -/
theorem generation?_insert (a : Arena α) (x : α) (ha : WellFormed a) :
    (a.generation? (a.insert x).1.index = some (a.insert x).1.generation ∨
      (a.generation? (a.insert x).1.index = none ∧ (a.insert x).1.generation = 0)) ∧
    ∀ i, (a.insert x).2.generation? i =
      if i = (a.insert x).1.index then some (a.insert x).1.generation else a.generation? i := by
  rcases a.insert_cases x ha with ⟨j, free, g, _, hslot, heq⟩ | ⟨_, heq⟩
  · have hlt := (Array.getElem?_eq_some_iff.mp hslot).1
    rw [heq]
    refine ⟨.inl (by simp [generation?, hslot]), fun i => ?_⟩
    by_cases hi : i = j
    · subst hi
      simp [generation?, hlt]
    · simp [generation?, hi, Ne.symm hi]
  · rw [heq]
    refine ⟨.inr (by simp [generation?]), fun i => ?_⟩
    by_cases hi : i = a.slots.size
    · subst hi
      simp [generation?]
    · simp [generation?, Array.getElem?_push, hi]

/-- Taking an item out makes its slot one generation older. -/
theorem generation?_remove (a b : Arena α) (h : NodeHandle) (x : α)
    (hr : a.remove h = some (x, b)) (i : Nat) :
    b.generation? i = if i = h.index then some (h.generation + 1) else a.generation? i := by
  unfold remove at hr
  simp only [Option.map_eq_some_iff, Prod.mk.injEq] at hr
  obtain ⟨y, hy, rfl, rfl⟩ := hr
  have hlt := (Array.getElem?_eq_some_iff.mp ((a.get?_eq_some_iff h y).mp hy)).1
  by_cases hi : i = h.index
  · subst hi
    simp [generation?, hlt]
  · simp [generation?, hi, Ne.symm hi]

/-- If no generation goes back, old handles stay old. -/
theorem Old.mono {a b : Arena α} {h : NodeHandle} (hold : a.Old h)
    (hle : ∀ i g, a.generation? i = some g → ∃ g', b.generation? i = some g' ∧ g.toNat ≤ g'.toNat) :
    b.Old h := by
  obtain ⟨g, hg, hlt⟩ := hold
  obtain ⟨g', hg', hgg'⟩ := hle h.index g hg
  exact ⟨g', hg', by omega⟩

/-! ## Section 2: Changing all items by their handles -/

theorem get?_mapWithHandle (a : Arena α) (f : NodeHandle → α → α) (h : NodeHandle) :
    (a.mapWithHandle f).get? h = (a.get? h).map (f h) := by
  unfold mapWithHandle get?
  simp only [Array.getElem?_mapIdx]
  cases a.slots[h.index]? with
  | none => rfl
  | some slot =>
    by_cases hg : slot.generation = h.generation
    · simp [hg]
    · simp [hg]

theorem mapWithHandle_wellFormed (a : Arena α) (f : NodeHandle → α → α) (ha : WellFormed a) :
    WellFormed (a.mapWithHandle f) := by
  refine ⟨ha.nodup_free, fun i hi => ?_, ?_⟩
  · obtain ⟨generation, hslot⟩ := ha.vacant i hi
    exact ⟨generation, by simp [mapWithHandle, hslot]⟩
  · refine ha.size_eq.trans (length_toList_congr _ _ fun k => ?_)
    rw [get?_mapWithHandle, Option.isSome_map]

/-! ## Section 3: Runs -/

/-- What can be done with an arena. -/
inductive Operation (α : Type) where
  | insert (x : α)
  | remove (h : NodeHandle)
  | get (h : NodeHandle)
  /-- Change the item of a handle in place. -/
  | modify (h : NodeHandle) (f : α → α)
  /-- Go through all items and change each in place. -/
  | modifyAll (f : NodeHandle → α → α)

/-- What an operation answers. -/
inductive Answer (α : Type) where
  | issued (h : NodeHandle)
  /-- The item of the handle, if it has one. -/
  | found (x : Option α)
  | listed (items : List (NodeHandle × α))

namespace Operation

/-- The arena after an operation. -/
def apply (a : Arena α) : Operation α → Arena α
  | insert x => (a.insert x).2
  | remove h => ((a.remove h).map Prod.snd).getD a
  | get _ => a
  | modify h f => a.modify h f
  | modifyAll f => a.mapWithHandle f

/-- The answer of an operation. -/
def answer (a : Arena α) : Operation α → Answer α
  | insert x => .issued (a.insert x).1
  | remove h => .found ((a.remove h).map Prod.fst)
  | get h => .found (a.get? h)
  | modify h _ => .found (a.get? h)
  | modifyAll _ => .listed a.toList

end Operation

/-- The arena after some operations. -/
def run (a : Arena α) (ops : List (Operation α)) : Arena α := ops.foldl Operation.apply a

/-- What an observer sees. -/
abbrev Log (α : Type) := List (Operation α × Answer α)

/-- What is seen of an operation. -/
def Operation.entry (op : Operation α) (a : Arena α) : Operation α × Answer α := (op, op.answer a)

theorem Operation.entry_insert (a : Arena α) (x : α) :
    (Operation.insert x).entry a = (.insert x, .issued (a.insert x).1) := rfl

theorem Operation.entry_remove (a : Arena α) (h : NodeHandle) :
    (Operation.remove h).entry a = (.remove h, .found ((a.remove h).map Prod.fst)) := rfl

/-- What is seen of some operations. -/
def observe (a : Arena α) : List (Operation α) → Log α
  | [] => []
  | op :: rest => op.entry a :: observe (op.apply a) rest

namespace Log

/-- The handles that were issued, in order. -/
def issued (log : Log α) : List NodeHandle :=
  log.filterMap fun
    | (_, .issued h) => some h
    | _ => none

/-- The handles that were taken back, in order. -/
def removed (log : Log α) : List NodeHandle :=
  log.filterMap fun
    | (.remove h, .found (some _)) => some h
    | _ => none

/-- How the map of an observer changes. -/
def enter (items : NodeHandle → Option α) : Operation α × Answer α → NodeHandle → Option α
  | (.insert x, .issued h) => Function.update items h (some x)
  | (.remove h, _) => Function.update items h none
  | (.modify h f, _) => Function.update items h ((items h).map f)
  | (.modifyAll f, _) => fun h => (items h).map (f h)
  | _ => items

/-- The map of an observer: the item that was inserted under a handle, with all later changes,
    until it was removed. -/
def contents (log : Log α) : NodeHandle → Option α := log.foldl enter fun _ => none

theorem issued_append (log new : Log α) : issued (log ++ new) = issued log ++ issued new :=
  List.filterMap_append

theorem removed_append (log new : Log α) : removed (log ++ new) = removed log ++ removed new :=
  List.filterMap_append

theorem contents_snoc (log : Log α) (e : Operation α × Answer α) :
    contents (log ++ [e]) = enter (contents log) e := by
  simp [contents]

theorem length_removed_le (log : Log α) : (removed log).length ≤ log.length :=
  List.length_filterMap_le _ _

end Log

/-! ## Section 4: What every operation keeps -/

/-- The arena and what was seen of it agree. -/
structure Agrees (log : Log α) (a : Arena α) : Prop where
  wellFormed : WellFormed a
  contents : ∀ h, a.get? h = log.contents h
  nodup_issued : log.issued.Nodup
  nodup_removed : log.removed.Nodup
  /-- A handle that was issued finds an item until it is taken back. -/
  issued_iff : ∀ h, h ∈ log.issued ↔ (∃ x, a.get? h = some x) ∨ h ∈ log.removed
  old : ∀ h ∈ log.removed, a.Old h
  /-- The generation of a slot counts the handles that were taken back. -/
  generation : ∀ i g, a.generation? i = some g → g.toNat = log.removed.countP (·.index = i)
  size : a.size + log.removed.length = log.issued.length

theorem agrees_empty : Agrees [] (empty : Arena α) where
  wellFormed := wellFormed_empty
  contents h := by simp [get?, empty, Log.contents]
  nodup_issued := List.nodup_nil
  nodup_removed := List.nodup_nil
  issued_iff h := by simp [get?, empty, Log.issued, Log.removed]
  old h hh := by simp [Log.removed] at hh
  generation i g hg := by simp [generation?, empty] at hg
  size := rfl

namespace Agrees

variable {log : Log α} {a b : Arena α}

/-- An operation that neither issues a handle nor takes one back. -/
theorem quiet (ha : Agrees log a) (e : Operation α × Answer α) (hissued : Log.issued [e] = [])
    (hremoved : Log.removed [e] = []) (hb : WellFormed b)
    (hcontents : ∀ h, b.get? h = Log.enter log.contents e h)
    (hlive : ∀ h, (b.get? h).isSome = (a.get? h).isSome)
    (hgeneration : ∀ i, b.generation? i = a.generation? i) (hsize : b.size = a.size) :
    Agrees (log ++ [e]) b := by
  have hsameIssued : (log ++ [e]).issued = log.issued := by
    rw [Log.issued_append, hissued, List.append_nil]
  have hsameRemoved : (log ++ [e]).removed = log.removed := by
    rw [Log.removed_append, hremoved, List.append_nil]
  constructor
  · exact hb
  · intro h
    rw [Log.contents_snoc]
    exact hcontents h
  · rw [hsameIssued]
    exact ha.nodup_issued
  · rw [hsameRemoved]
    exact ha.nodup_removed
  · intro h
    rw [hsameIssued, hsameRemoved, ha.issued_iff, ← Option.isSome_iff_exists,
      ← Option.isSome_iff_exists, hlive]
  · intro h hh
    rw [hsameRemoved] at hh
    refine (ha.old h hh).mono fun i g hg => ⟨g, ?_, le_refl _⟩
    rw [hgeneration]
    exact hg
  · intro i g hg
    rw [hgeneration] at hg
    rw [hsameRemoved]
    exact ha.generation i g hg
  · rw [hsameRemoved, hsameIssued, hsize]
    exact ha.size

/-- A handle that is issued was not issued before: it finds nothing yet, and it is as old as
    its slot, while those that were taken back are older. -/
theorem not_mem_issued (ha : Agrees log a) (x : α) : (a.insert x).1 ∉ log.issued := by
  obtain ⟨hbefore, _⟩ := a.generation?_insert x ha.wellFormed
  intro hmem
  rcases (ha.issued_iff _).mp hmem with ⟨y, hy⟩ | hremoved
  · rw [a.get?_insert_fresh x ha.wellFormed] at hy
    cases hy
  · obtain ⟨g, hg, hlt⟩ := ha.old _ hremoved
    rcases hbefore with hsame | ⟨hnone, _⟩
    · rw [hsame, Option.some.injEq] at hg
      rw [hg] at hlt
      exact lt_irrefl _ hlt
    · rw [hnone] at hg
      cases hg

theorem insert (ha : Agrees log a) (x : α) :
    Agrees (log ++ [(Operation.insert x).entry a]) (a.insert x).2 := by
  rw [Operation.entry_insert]
  have hget := fun k => a.get?_insert x k ha.wellFormed
  have hnew := ha.not_mem_issued x
  obtain ⟨hbefore, hafter⟩ := a.generation?_insert x ha.wellFormed
  have hsize := a.size_insert x
  have hwellFormed := insert_wellFormed a x ha.wellFormed
  generalize a.insert x = r at *
  have hissued : Log.issued (log ++ [(.insert x, .issued r.1)]) = log.issued ++ [r.1] :=
    Log.issued_append _ _
  have hremoved : Log.removed (log ++ [(.insert x, .issued r.1)]) = log.removed := by
    rw [Log.removed_append]
    exact List.append_nil _
  -- the slot of the new handle is as old as before, or new
  have hkept : ∀ i g, a.generation? i = some g →
      ∃ g', r.2.generation? i = some g' ∧ g.toNat ≤ g'.toNat := by
    intro i g hg
    rw [hafter]
    by_cases hi : i = r.1.index
    · rcases hbefore with hsame | ⟨hnone, _⟩
      · rw [hi, hsame, Option.some.injEq] at hg
        exact ⟨r.1.generation, by simp [hi], by rw [hg]⟩
      · rw [hi, hnone] at hg
        cases hg
    · exact ⟨g, by simpa [hi] using hg, le_refl _⟩
  constructor
  · exact hwellFormed
  · intro h
    rw [Log.contents_snoc, hget]
    show _ = Function.update log.contents r.1 (some x) h
    rw [Function.update_apply, ha.contents]
  · rw [hissued, List.nodup_append]
    refine ⟨ha.nodup_issued, List.nodup_singleton _, ?_⟩
    intro h hh k hk heq
    rw [List.mem_singleton.mp hk] at heq
    exact hnew (heq ▸ hh)
  · rw [hremoved]
    exact ha.nodup_removed
  · intro h
    rw [hissued, hremoved, List.mem_append, List.mem_singleton, ha.issued_iff, hget]
    by_cases hh : h = r.1
    · simp [hh]
    · simp [hh]
  · intro h hh
    rw [hremoved] at hh
    exact (ha.old h hh).mono hkept
  · intro i g hg
    rw [hremoved]
    rw [hafter] at hg
    by_cases hi : i = r.1.index
    · rw [if_pos hi, Option.some.injEq] at hg
      rcases hbefore with hsame | ⟨hnone, hzero⟩
      · exact ha.generation i g (by rw [hi, hsame, hg])
      · -- no handle of a new slot was taken back
        rw [← hg, hzero, eq_comm]
        refine List.countP_eq_zero.mpr fun h hh => ?_
        obtain ⟨g', hg', _⟩ := ha.old h hh
        intro hindex
        rw [decide_eq_true_eq] at hindex
        rw [hindex, hi, hnone] at hg'
        cases hg'
    · rw [if_neg hi] at hg
      exact ha.generation i g hg
  · have hcount := ha.size
    rw [hremoved, hissued, hsize, List.length_append, List.length_singleton]
    omega

theorem remove (ha : Agrees log a) (h : NodeHandle) (x : α) (hr : a.remove h = some (x, b))
    (hroom : log.length + 1 < 2 ^ 32) :
    Agrees (log ++ [(Operation.remove h).entry a]) b := by
  rw [Operation.entry_remove, hr, Option.map_some]
  have hget := fun k => a.get?_remove b h k x hr
  have hlive : a.get? h = some x := (hget h).1
  have hwas := a.generation?_of_get? h x hlive
  have hnext := a.generation?_remove b h x hr
  have hissued : Log.issued (log ++ [(.remove h, .found (some x))]) = log.issued := by
    rw [Log.issued_append]
    exact List.append_nil _
  have hremoved : Log.removed (log ++ [(.remove h, .found (some x))]) = log.removed ++ [h] :=
    Log.removed_append _ _
  have hfirst : h ∉ log.removed := fun hh => a.not_old_of_get? h x hlive (ha.old h hh)
  -- fewer handles were taken back than generations are told apart
  have hcount := ha.generation h.index h.generation hwas
  have hstep : (h.generation + 1).toNat = h.generation.toNat + 1 := by
    have hbound := List.countP_le_length (p := fun k : NodeHandle => k.index = h.index)
      (l := log.removed)
    have hlength := log.length_removed_le
    rw [UInt32.toNat_add]
    exact Nat.mod_eq_of_lt (by simp; omega)
  constructor
  · exact remove_wellFormed a b h x hr ha.wellFormed
  · intro k
    rw [Log.contents_snoc, (hget k).2]
    show _ = Function.update log.contents h none k
    rw [Function.update_apply, ha.contents]
  · rw [hissued]
    exact ha.nodup_issued
  · rw [hremoved, List.nodup_append]
    refine ⟨ha.nodup_removed, List.nodup_singleton _, ?_⟩
    intro k hk j hj heq
    rw [List.mem_singleton.mp hj] at heq
    exact hfirst (heq ▸ hk)
  · intro k
    rw [hissued, hremoved, List.mem_append, List.mem_singleton, ha.issued_iff, (hget k).2]
    by_cases hk : k = h
    · simp [hk, hlive]
    · simp [hk]
  · intro k hk
    rw [hremoved, List.mem_append, List.mem_singleton] at hk
    rcases hk with hk | rfl
    · refine (ha.old k hk).mono fun i g hg => ?_
      rw [hnext]
      by_cases hi : i = h.index
      · rw [hi, hwas, Option.some.injEq] at hg
        exact ⟨h.generation + 1, by simp [hi], by rw [hstep, hg]; omega⟩
      · exact ⟨g, by simpa [hi] using hg, le_refl _⟩
    · exact ⟨k.generation + 1, by simp [hnext], by omega⟩
  · intro i g hg
    rw [hremoved, List.countP_append]
    rw [hnext] at hg
    by_cases hi : i = h.index
    · rw [if_pos hi, Option.some.injEq] at hg
      subst hi
      rw [← hg, hstep, hcount]
      simp
    · rw [if_neg hi] at hg
      rw [ha.generation i g hg]
      simp [Ne.symm hi]
  · have hperm := (a.toList_remove_perm b h x hr).length_eq
    rw [← ha.wellFormed.size_eq, List.length_cons,
      ← (remove_wellFormed a b h x hr ha.wellFormed).size_eq] at hperm
    have hsize := ha.size
    rw [hremoved, hissued, List.length_append, List.length_singleton]
    omega

/-- One operation, whichever it is. -/
theorem step (ha : Agrees log a) (op : Operation α) (hroom : log.length + 1 < 2 ^ 32) :
    Agrees (log ++ [op.entry a]) (op.apply a) := by
  cases op with
  | insert x => exact ha.insert x
  | remove h =>
    cases hr : a.remove h with
    | some r =>
      have happly : (Operation.remove h).apply a = r.2 := by simp [Operation.apply, hr]
      rw [happly]
      exact ha.remove h r.1 hr hroom
    | none =>
      have happly : (Operation.remove h).apply a = a := by simp [Operation.apply, hr]
      have hnone : log.contents h = none := by
        rw [← ha.contents]
        simpa [Arena.remove] using hr
      have hquiet : Log.removed [(Operation.remove h).entry a] = [] := by
        simp [Log.removed, Operation.entry_remove, hr]
      rw [happly]
      refine ha.quiet _ rfl hquiet ha.wellFormed (fun k => ?_) (fun _ => rfl) (fun _ => rfl) rfl
      show a.get? k = Function.update log.contents h none k
      rw [Function.update_apply, ha.contents]
      by_cases hk : k = h
      · rw [if_pos hk, hk, hnone]
      · rw [if_neg hk]
  | get h => exact ha.quiet _ rfl rfl ha.wellFormed ha.contents (fun _ => rfl) (fun _ => rfl) rfl
  | modify h f =>
    refine ha.quiet _ rfl rfl (modify_wellFormed a h f ha.wellFormed) (fun k => ?_) (fun k => ?_)
      (a.generation?_modify h f) ?_
    · show (a.modify h f).get? k = Function.update log.contents h ((log.contents h).map f) k
      rw [get?_modify, Function.update_apply, ← ha.contents, ← ha.contents]
    · show ((a.modify h f).get? k).isSome = _
      rw [get?_modify]
      by_cases hk : k = h
      · simp [hk]
      · simp [hk]
    · show (a.modify h f).size = a.size
      unfold Arena.modify
      split <;> rfl
  | modifyAll f =>
    refine ha.quiet _ rfl rfl (mapWithHandle_wellFormed a f ha.wellFormed) (fun k => ?_)
      (fun k => ?_) (a.generation?_mapWithHandle f) rfl
    · show (a.mapWithHandle f).get? k = (log.contents k).map (f k)
      rw [get?_mapWithHandle, ha.contents]
    · show ((a.mapWithHandle f).get? k).isSome = _
      rw [get?_mapWithHandle, Option.isSome_map]

/-- A whole run, by one operation after the other. -/
theorem run (ha : Agrees log a) (ops : List (Operation α))
    (hroom : log.length + ops.length < 2 ^ 32) :
    Agrees (log ++ observe a ops) (Arena.run a ops) := by
  induction ops generalizing log a with
  | nil =>
    rw [observe, List.append_nil]
    exact ha
  | cons op rest ih =>
    rw [List.length_cons] at hroom
    have hstep := ha.step op (by omega)
    have hrest := ih hstep (by simp; omega)
    rw [List.append_assoc] at hrest
    exact hrest

end Agrees

/-! ## Section 5: The arena as a map -/

/-- **Main theorem: an arena is a map that never resurrects a handle.**  After fewer than
    `2 ^ 32` operations on an empty arena, the handles that were issued are distinct, and none
    was taken back twice.  A handle finds what an observer expects, whether it is looked up or
    taken back: an item from the time it is issued to the time it is taken back, and nothing
    before, after, or if it was never issued.  The items are listed with their handles in the order of
    their slots, and counted. -/
theorem handles_of_run (ops : List (Operation α)) (hops : ops.length < 2 ^ 32) :
    let log : Log α := observe empty ops
    let a : Arena α := run empty ops
    log.issued.Nodup ∧ log.removed.Nodup ∧
      (∀ h, a.get? h = log.contents h ∧ (a.remove h).map Prod.fst = log.contents h) ∧
      (∀ h, (∃ x, log.contents h = some x) ↔ h ∈ log.issued ∧ h ∉ log.removed) ∧
      (∀ h x, (h, x) ∈ a.toList ↔ log.contents h = some x) ∧
      (a.toList.Pairwise fun e f => e.1.index < f.1.index) ∧
      a.size = a.toList.length ∧ a.size + log.removed.length = log.issued.length := by
  intro log a
  have h : Agrees log a := agrees_empty.run ops (by simpa using hops)
  refine ⟨h.nodup_issued, h.nodup_removed, fun k => ⟨h.contents k, ?_⟩, fun k => ?_, fun k x => ?_,
    a.pairwise_index_toList, h.wellFormed.size_eq, h.size⟩
  · rw [← h.contents, remove, Option.map_map]
    exact Option.map_id'
  · rw [h.issued_iff, ← h.contents]
    constructor
    · rintro ⟨x, hx⟩
      exact ⟨.inl ⟨x, hx⟩, fun hk => a.not_old_of_get? k x hx (h.old k hk)⟩
    · rintro ⟨hx | hk, hnot⟩
      · exact hx
      · exact absurd hk hnot
  · rw [mem_toList_iff, h.contents]

/-- A slot is used again: its old handle stays dead. -/
theorem handles_of_run_reused :
    let ops : List (Operation Nat) := [.insert 1, .insert 2, .remove ⟨0, 0⟩, .insert 3,
      .modify ⟨0, 1⟩ (· + 10), .modifyAll fun h x => x * 2 + h.index, .get ⟨0, 0⟩, .remove ⟨0, 0⟩]
    let log : Log Nat := observe empty ops
    let a : Arena Nat := run empty ops
    ops.length < 2 ^ 32 ∧ log.issued = [⟨0, 0⟩, ⟨1, 0⟩, ⟨0, 1⟩] ∧ log.removed = [⟨0, 0⟩] ∧
      a.get? ⟨0, 0⟩ = none ∧ a.get? ⟨0, 1⟩ = some 26 ∧ a.toList = [(⟨0, 1⟩, 26), (⟨1, 0⟩, 5)] ∧
      a.size + log.removed.length = log.issued.length := by
  intro ops log a
  obtain ⟨_, _, hget, _, _, _, _, hsize⟩ := handles_of_run ops (by decide)
  exact ⟨by decide, by decide, by decide, (hget ⟨0, 0⟩).1, (hget ⟨0, 1⟩).1, by decide, hsize⟩

end Arena
end FlowGraph
