import FlowGraph.Arena
import Mathlib

/-! # Laws of arenas

    What a handle finds after each operation.  An arena is well-formed if its free
    slots hold nothing, none of them is listed twice, and its items are counted right; then
    an item never takes the place of another one. -/

namespace FlowGraph

namespace Arena

variable {α : Type}

/-- The free slots hold nothing, and none is listed twice; the items are counted. -/
structure WellFormed (a : Arena α) : Prop where
  nodup_free : a.free.Nodup
  vacant : ∀ i ∈ a.free, ∃ generation, a.slots[i]? = some ⟨generation, none⟩
  size_eq : a.size = a.toList.length

theorem wellFormed_empty : WellFormed (empty : Arena α) :=
  ⟨List.nodup_nil, List.forall_mem_nil _, rfl⟩

theorem get?_eq_some_iff (a : Arena α) (h : NodeHandle) (x : α) :
    a.get? h = some x ↔ a.slots[h.index]? = some ⟨h.generation, some x⟩ := by
  unfold get?
  cases hs : a.slots[h.index]? with
  | none => simp
  | some slot =>
    obtain ⟨generation, item⟩ := slot
    by_cases hg : generation = h.generation <;> simp [hg]

theorem get?_of_slot (a : Arena α) (h : NodeHandle) (slot : Slot α)
    (hs : a.slots[h.index]? = some slot) :
    a.get? h = if slot.generation = h.generation then slot.item else none := by
  simp [get?, hs]

/-- A handle of another generation finds nothing. -/
theorem get?_of_stale (a : Arena α) (h k : NodeHandle) (item : Option α)
    (hs : a.slots[h.index]? = some ⟨h.generation, item⟩) (hi : k.index = h.index) (hk : k ≠ h) :
    a.get? k = none := by
  rw [a.get?_of_slot k _ (by rw [hi]; exact hs)]
  have hg : h.generation ≠ k.generation := by
    intro hg
    apply hk
    cases h
    cases k
    simp_all
  simp [hg]

/-- Two handles of live items in one slot are the same. -/
theorem eq_of_index_eq (a : Arena α) (h k : NodeHandle) (x y : α) (hx : a.get? h = some x)
    (hy : a.get? k = some y) (hi : h.index = k.index) : h = k := by
  rw [get?_eq_some_iff] at hx hy
  rw [hi, hy] at hx
  obtain ⟨hi', hg'⟩ := h
  obtain ⟨ki, kg⟩ := k
  simp only [Option.some.injEq, Slot.mk.injEq] at hx hi
  rw [hi, hx.1]

/-! ## Section 1: Changing items -/

theorem get?_modify (a : Arena α) (h k : NodeHandle) (f : α → α) :
    (a.modify h f).get? k = if k = h then (a.get? h).map f else a.get? k := by
  unfold modify
  cases hx : a.get? h with
  | none =>
    by_cases hk : k = h
    · simp [hk, hx]
    · simp [hk]
  | some x =>
    have hslot := (a.get?_eq_some_iff h x).mp hx
    have hlt : h.index < a.slots.size := (Array.getElem?_eq_some_iff.mp hslot).1
    by_cases hk : k = h
    · subst hk
      simp [get?, hlt]
    · by_cases hi : k.index = h.index
      · -- an old handle of this slot finds nothing before and after
        rw [a.get?_of_stale h k _ hslot hi hk, if_neg hk]
        exact get?_of_stale _ h k (some (f x)) (by simp [hlt]) hi hk
      · simp [get?, hk, Ne.symm hi]

/-- A change that leaves the item as it is. -/
theorem modify_eq_self (a : Arena α) (h : NodeHandle) (f : α → α)
    (hf : ∀ x, a.get? h = some x → f x = x) : a.modify h f = a := by
  unfold modify
  cases hx : a.get? h with
  | none => rfl
  | some x =>
    have hslot := (a.get?_eq_some_iff h x).mp hx
    obtain ⟨hlt, hitem⟩ := Array.getElem?_eq_some_iff.mp hslot
    simp [hf x hx, ← hitem, Array.setIfInBounds, hlt]

theorem get?_map (a : Arena α) (h : NodeHandle) (f : α → α) :
    (a.map f).get? h = (a.get? h).map f := by
  unfold map get?
  simp only [Array.getElem?_map]
  cases a.slots[h.index]? with
  | none => rfl
  | some slot => by_cases hg : slot.generation = h.generation <;> simp [hg]

/-- A change before a map is another change after it. -/
theorem map_modify_comm (a : Arena α) (h : NodeHandle) (f f' g : α → α)
    (hf : ∀ x, g (f x) = f' (g x)) : (a.modify h f).map g = (a.map g).modify h f' := by
  unfold modify
  rw [get?_map]
  cases hx : a.get? h with
  | none => rfl
  | some x =>
    simp only [map, Array.map_setIfInBounds, Option.map_some, hf]

/-- A change that `g` does not see. -/
theorem map_modify (a : Arena α) (h : NodeHandle) (f g : α → α) (hf : ∀ x, g (f x) = g x) :
    (a.modify h f).map g = a.map g := by
  unfold modify
  cases hx : a.get? h with
  | none => rfl
  | some x =>
    have hslot := (a.get?_eq_some_iff h x).mp hx
    simp only [map, Array.map_setIfInBounds, Option.map_some, hf, mk.injEq, and_true]
    apply Array.ext_getElem?
    intro i
    rw [Array.getElem?_setIfInBounds]
    by_cases hi : h.index = i
    · subst hi
      have hlt := (Array.getElem?_eq_some_iff.mp hslot).1
      rw [Array.getElem?_map, hslot]
      simp [hlt]
    · simp [hi]

theorem map_map (a : Arena α) (f g : α → α) : (a.map f).map g = a.map (g ∘ f) := by
  simp [map, Function.comp_def]

theorem toList_map (a : Arena α) (f : α → α) :
    (a.map f).toList = a.toList.map fun e => (e.1, f e.2) := by
  unfold toList map
  simp only [Array.toList_map, List.zipIdx_map, List.filterMap_map, List.map_filterMap]
  apply List.filterMap_congr
  intro e _
  cases hitem : e.1.item with
  | none => simp [hitem]
  | some x => simp [hitem]

/-- The list holds what the handles find. -/
theorem mem_toList_iff (a : Arena α) (h : NodeHandle) (x : α) :
    (h, x) ∈ a.toList ↔ a.get? h = some x := by
  rw [get?_eq_some_iff]
  unfold toList
  constructor
  · intro hmem
    obtain ⟨⟨slot, i⟩, hslot, heq⟩ := List.mem_filterMap.mp hmem
    rw [List.mem_zipIdx_iff_getElem?, Array.getElem?_toList] at hslot
    obtain ⟨y, hy, heq⟩ := Option.map_eq_some_iff.mp heq
    cases heq
    have hitem : slot.item = some x := hy
    rw [hslot, ← hitem]
  · intro hslot
    refine List.mem_filterMap.mpr ⟨(⟨h.generation, some x⟩, h.index), ?_, rfl⟩
    rw [List.mem_zipIdx_iff_getElem?, Array.getElem?_toList]
    exact hslot

/-- Items are listed in the order of their slots. -/
theorem pairwise_index_toList (a : Arena α) : a.toList.Pairwise fun e f => e.1.index < f.1.index := by
  have hascending : a.slots.toList.zipIdx.Pairwise fun x y => x.2 < y.2 := by
    rw [← List.pairwise_map (f := Prod.snd) (R := (· < ·)), List.zipIdx_map_snd]
    exact List.pairwise_lt_range'
  unfold toList
  rw [List.pairwise_filterMap]
  refine hascending.imp ?_
  rintro ⟨slot, i⟩ ⟨slot', j⟩ hij e he f hf
  obtain ⟨_, _, rfl⟩ := Option.map_eq_some_iff.mp he
  obtain ⟨_, _, rfl⟩ := Option.map_eq_some_iff.mp hf
  exact hij

/-- The list has every handle once. -/
theorem nodup_map_fst_toList (a : Arena α) : (a.toList.map Prod.fst).Nodup := by
  rw [List.Nodup, List.pairwise_map]
  refine a.pairwise_index_toList.imp fun {e f} hlt hsame => ?_
  rw [hsame] at hlt
  exact lt_irrefl _ hlt

theorem mem_map_fst_toList_iff (a : Arena α) (h : NodeHandle) :
    h ∈ a.toList.map Prod.fst ↔ (a.get? h).isSome = true := by
  rw [List.mem_map, Option.isSome_iff_exists]
  constructor
  · rintro ⟨⟨k, x⟩, hmem, rfl⟩
    exact ⟨x, (a.mem_toList_iff k x).mp hmem⟩
  · rintro ⟨x, hx⟩
    exact ⟨(h, x), (a.mem_toList_iff h x).mpr hx, rfl⟩

/-- Arenas whose handles find items alike hold equally many. -/
theorem length_toList_congr (a b : Arena α)
    (h : ∀ k, (a.get? k).isSome = (b.get? k).isSome) : a.toList.length = b.toList.length := by
  have hperm : (a.toList.map Prod.fst).Perm (b.toList.map Prod.fst) := by
    refine (List.perm_ext_iff_of_nodup a.nodup_map_fst_toList b.nodup_map_fst_toList).mpr ?_
    intro k
    rw [mem_map_fst_toList_iff, mem_map_fst_toList_iff, h]
  simpa using hperm.length_eq

/-- An arena whose items were changed one by one lists them in the same order. -/
theorem toList_eq_map (a b : Arena α) (f : NodeHandle → α → α)
    (h : ∀ k, b.get? k = (a.get? k).map (f k)) :
    b.toList = a.toList.map fun e => (e.1, f e.1 e.2) := by
  have hordered : (a.toList.map fun e => (e.1, f e.1 e.2)).Pairwise
      fun e e' => e.1.index < e'.1.index := List.pairwise_map.mpr a.pairwise_index_toList
  refine List.Perm.eq_of_pairwise (fun e e' _ _ hlt hlt' => absurd hlt' (lt_asymm hlt))
    b.pairwise_index_toList hordered ?_
  refine (List.perm_ext_iff_of_nodup b.nodup_map_fst_toList.of_map
    (List.Nodup.of_map Prod.fst ?_)).mpr fun ⟨k, y⟩ => ?_
  · rw [List.map_map]
    exact a.nodup_map_fst_toList
  · rw [mem_toList_iff, h, List.mem_map, Option.map_eq_some_iff]
    constructor
    · rintro ⟨x, hx, rfl⟩
      exact ⟨(k, x), (a.mem_toList_iff k x).mpr hx, rfl⟩
    · rintro ⟨⟨k', x⟩, hx, heq⟩
      cases heq
      exact ⟨x, (a.mem_toList_iff _ x).mp hx, rfl⟩

theorem modify_wellFormed (a : Arena α) (h : NodeHandle) (f : α → α) (ha : WellFormed a) :
    WellFormed (a.modify h f) := by
  have hlength : (a.modify h f).toList.length = a.toList.length := by
    refine length_toList_congr _ _ fun k => ?_
    rw [get?_modify]
    by_cases hk : k = h
    · simp [hk]
    · rw [if_neg hk]
  unfold modify at hlength ⊢
  cases hx : a.get? h with
  | none => exact ha
  | some x =>
    rw [hx] at hlength
    refine ⟨ha.nodup_free, fun i hi => ?_, ha.size_eq.trans hlength.symm⟩
    obtain ⟨generation, hslot⟩ := ha.vacant i hi
    have hne : h.index ≠ i := by
      rintro rfl
      rw [get?_eq_some_iff, hslot] at hx
      cases hx
    exact ⟨generation, by simpa [hne] using hslot⟩

theorem map_wellFormed (a : Arena α) (f : α → α) (ha : WellFormed a) : WellFormed (a.map f) := by
  refine ⟨ha.nodup_free, fun i hi => ?_, ?_⟩
  · obtain ⟨generation, hslot⟩ := ha.vacant i hi
    exact ⟨generation, by simp [map, hslot]⟩
  · rw [toList_map, List.length_map]
    exact ha.size_eq

/-! ## Section 2: Inserting -/

/-- An item goes to a slot that holds nothing. -/
theorem insert_cases (a : Arena α) (x : α) (ha : WellFormed a) :
    (∃ i free generation, a.free = i :: free ∧ a.slots[i]? = some ⟨generation, none⟩ ∧
      a.insert x = (⟨i, generation⟩,
        ⟨a.slots.setIfInBounds i ⟨generation, some x⟩, free, a.size + 1⟩)) ∨
    (a.free = [] ∧
      a.insert x = (⟨a.slots.size, 0⟩, ⟨a.slots.push ⟨0, some x⟩, [], a.size + 1⟩)) := by
  unfold insert
  cases hfree : a.free with
  | nil => exact .inr ⟨rfl, rfl⟩
  | cons i free =>
    obtain ⟨generation, hslot⟩ := ha.vacant i (by rw [hfree]; exact List.mem_cons_self)
    exact .inl ⟨i, free, generation, rfl, hslot, by simp [hslot]⟩

theorem get?_insert (a : Arena α) (x : α) (k : NodeHandle) (ha : WellFormed a) :
    (a.insert x).2.get? k = if k = (a.insert x).1 then some x else a.get? k := by
  rcases a.insert_cases x ha with ⟨i, free, generation, _, hslot, heq⟩ | ⟨_, heq⟩
  · rw [heq]
    have hlt := (Array.getElem?_eq_some_iff.mp hslot).1
    by_cases hk : k = ⟨i, generation⟩
    · subst hk
      simp [get?, hlt]
    · -- handles of the free slot found nothing before, and are older than the new one
      rw [if_neg hk]
      by_cases hi : k.index = i
      · rw [a.get?_of_stale ⟨i, generation⟩ k none hslot hi hk]
        exact get?_of_stale _ ⟨i, generation⟩ k (some x) (by simp [hlt]) hi hk
      · simp [get?, Ne.symm hi]
  · rw [heq]
    by_cases hk : k = ⟨a.slots.size, 0⟩
    · subst hk
      simp [get?]
    · rw [if_neg hk]
      by_cases hi : k.index = a.slots.size
      · have hnone : a.get? k = none := by simp [get?, hi]
        rw [hnone]
        exact get?_of_stale _ ⟨a.slots.size, 0⟩ k (some x) (by simp) hi hk
      · simp [get?, Array.getElem?_push, hi]

theorem get?_insert_fresh (a : Arena α) (x : α) (ha : WellFormed a) :
    a.get? (a.insert x).1 = none := by
  rcases a.insert_cases x ha with ⟨i, free, generation, _, hslot, heq⟩ | ⟨_, heq⟩
  · rw [heq]
    simp [get?, hslot]
  · rw [heq]
    simp [get?]

/-- A new item is listed with the others, somewhere. -/
theorem toList_insert_perm (a : Arena α) (x : α) (ha : WellFormed a) :
    (a.insert x).2.toList.Perm (((a.insert x).1, x) :: a.toList) := by
  have hnodup : ∀ b : Arena α, b.toList.Nodup := fun b => .of_map _ b.nodup_map_fst_toList
  have hnew : ∀ y, ((a.insert x).1, y) ∉ a.toList := by
    intro y hy
    rw [mem_toList_iff, a.get?_insert_fresh x ha] at hy
    cases hy
  refine (List.perm_ext_iff_of_nodup (hnodup _) (List.nodup_cons.mpr ⟨hnew x, hnodup a⟩)).mpr ?_
  rintro ⟨k, y⟩
  rw [mem_toList_iff, get?_insert _ _ _ ha, List.mem_cons, mem_toList_iff, Prod.mk.injEq]
  by_cases hk : k = (a.insert x).1
  · subst hk
    simp [a.get?_insert_fresh x ha, eq_comm]
  · simp [hk]

theorem size_insert (a : Arena α) (x : α) : (a.insert x).2.size = a.size + 1 := by
  unfold insert
  split
  · split <;> rfl
  · rfl

theorem insert_wellFormed (a : Arena α) (x : α) (ha : WellFormed a) :
    WellFormed (a.insert x).2 := by
  have hsize : (a.insert x).2.size = (a.insert x).2.toList.length := by
    rw [a.size_insert, (a.toList_insert_perm x ha).length_eq, ha.size_eq]
    rfl
  rcases a.insert_cases x ha with ⟨i, free, generation, hfree, hslot, heq⟩ | ⟨_, heq⟩
  · rw [heq] at hsize ⊢
    have hnodup := ha.nodup_free
    rw [hfree, List.nodup_cons] at hnodup
    refine ⟨hnodup.2, fun j hj => ?_, hsize⟩
    obtain ⟨generation', hslot'⟩ := ha.vacant j (by rw [hfree]; exact List.mem_cons_of_mem i hj)
    have hne : i ≠ j := fun hij => hnodup.1 (hij ▸ hj)
    exact ⟨generation', by simpa [hne] using hslot'⟩
  · rw [heq] at hsize ⊢
    exact ⟨List.nodup_nil, List.forall_mem_nil _, hsize⟩

/-! ## Section 3: Removing -/

theorem get?_remove (a b : Arena α) (h k : NodeHandle) (x : α) (hr : a.remove h = some (x, b)) :
    a.get? h = some x ∧ b.get? k = if k = h then none else a.get? k := by
  unfold remove at hr
  simp only [Option.map_eq_some_iff, Prod.mk.injEq] at hr
  obtain ⟨y, hy, rfl, rfl⟩ := hr
  have hslot := (a.get?_eq_some_iff h y).mp hy
  have hlt := (Array.getElem?_eq_some_iff.mp hslot).1
  refine ⟨hy, ?_⟩
  by_cases hi : k.index = h.index
  · -- the slot holds nothing any more, and before it held nothing for another handle
    rw [get?_of_slot _ k ⟨h.generation + 1, none⟩ (by simp [hi, hlt])]
    by_cases hk : k = h
    · simp [hk]
    · simp [hk, a.get?_of_stale h k _ hslot hi hk]
  · have hk : k ≠ h := fun hk => hi (by rw [hk])
    simp [get?, hk, Ne.symm hi]

/-- The item that is taken out is listed no more, and all others are. -/
theorem toList_remove_perm (a b : Arena α) (h : NodeHandle) (x : α)
    (hr : a.remove h = some (x, b)) : a.toList.Perm ((h, x) :: b.toList) := by
  have hnodup : ∀ c : Arena α, c.toList.Nodup := fun c => .of_map _ c.nodup_map_fst_toList
  have hget := fun k => a.get?_remove b h k x hr
  have hgone : (h, x) ∉ b.toList := by
    rw [mem_toList_iff, (hget h).2, if_pos rfl]
    simp
  refine (List.perm_ext_iff_of_nodup (hnodup a) (List.nodup_cons.mpr ⟨hgone, hnodup b⟩)).mpr ?_
  rintro ⟨k, y⟩
  rw [mem_toList_iff, List.mem_cons, mem_toList_iff, (hget k).2, Prod.mk.injEq]
  by_cases hk : k = h
  · subst hk
    simp [(hget k).1, eq_comm]
  · simp [hk]

theorem remove_wellFormed (a b : Arena α) (h : NodeHandle) (x : α)
    (hr : a.remove h = some (x, b)) (ha : WellFormed a) : WellFormed b := by
  have hlength := (a.toList_remove_perm b h x hr).length_eq
  rw [← ha.size_eq, List.length_cons] at hlength
  unfold remove at hr
  simp only [Option.map_eq_some_iff, Prod.mk.injEq] at hr
  obtain ⟨y, hy, rfl, rfl⟩ := hr
  have hslot := (a.get?_eq_some_iff h y).mp hy
  have hlt := (Array.getElem?_eq_some_iff.mp hslot).1
  -- a slot that holds an item is not free yet, so it is listed once
  have hnot : h.index ∉ a.free := by
    intro hin
    obtain ⟨generation, hvacant⟩ := ha.vacant h.index hin
    rw [hslot] at hvacant
    cases hvacant
  refine ⟨List.nodup_cons.mpr ⟨hnot, ha.nodup_free⟩, fun i hi => ?_, by dsimp only; omega⟩
  rcases List.mem_cons.mp hi with rfl | hin
  · exact ⟨h.generation + 1, by simp [hlt]⟩
  · obtain ⟨generation, hvacant⟩ := ha.vacant i hin
    have hne : h.index ≠ i := fun hij => hnot (hij ▸ hin)
    exact ⟨generation, by simpa [hne] using hvacant⟩

end Arena
end FlowGraph
